import Deadwood.Config.Display
import Deadwood.Config.Example
import Deadwood.Config.Load

/-!
# Setting up a configuration

* `create` writes the example of a configuration file.
* `showCurrent` shows the configuration that holds.
-/

namespace Deadwood.Config

variable {m : Type → Type} [Monad m] (host : Host m) (lib : Library)

/-- Where a configuration file is written unless another place is given. -/
def usualFile : Path := .ofText "callclinic.yaml"

/-- What is printed when the example was written. -/
def createdNotice (path : Path) : List String := [
  "✅ 配置文件已生成: " ++ path.text,
  "",
  "📋 生成的配置内容:",
  Text.times 50 "━",
  exampleText,
  Text.times 50 "━",
  "",
  "💡 下一步操作:",
  "1. 按需修改 paths / exclude",
  "2. 在 ignore 中列出框架回调等外部入口",
  "3. CI 中可设置 severity: error 以阻断",
  "4. 运行 'callclinic run' 进行分析"]

/-- Writes the example to a file, which must not be there unless it may be replaced; says whether it
was written. -/
def create (path : Path) (replace : Bool) : ExceptT FileError m Bool := do
  if (← host.isThere path) && !replace then
    host.sayAll [
      "⚠️  配置文件已存在: " ++ path.text,
      "   使用 'callclinic init --force' 覆盖"]
    return false
  else
    ExceptT.mk (host.write path exampleText.toUTF8.toList)
    host.sayAll (createdNotice path)
    return true

/-- What is printed to show a configuration and where it comes from. -/
def presentation (source : Option Path) (c : Config) : List String := [
  "📋 当前生效配置:",
  Text.times 60 "━",
  "📄 来源: " ++ (source.map Path.text).getD "默认配置",
  c.display,
  Text.times 60 "━",
  "💡 提示:",
  "  • 使用 'callclinic init' 生成新的配置文件",
  "  • 配置文件优先级: callclinic.yaml > .callclinic.yaml > pyproject.toml"]

/-- Shows the configuration in the given file, or the one that holds; says whether there is a valid
one. -/
def showCurrent (file : Option Path) : ExceptT LoadError m Bool :=
  ExceptT.mk do
    match ← (load host lib file true).run with
    | .error (.invalid e) =>
      host.say ("❌ 配置加载失败: " ++ e.message)
      return .ok false
    | .error e => return .error e
    | .ok c =>
      let source : ExceptT LoadError m (Option Path) := match file with
        | some p => pure (some p)
        | none => find host lib {}
      match ← source.run with
      | .error e => return .error e
      | .ok source =>
        host.sayAll (presentation source c)
        return .ok true

end Deadwood.Config
