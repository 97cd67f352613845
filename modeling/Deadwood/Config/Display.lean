import Deadwood.Config

/-!
# Showing configurations

`Config.display` is a configuration in words, one option or group of options a line.
-/

namespace Deadwood.Config

/-- Texts with commas between. -/
def commas (xs : List String) : String := ", ".intercalate xs

/-- A configuration in words. -/
def display (c : Config) : String :=
  "\n".intercalate [
    "🔧 基础设置:",
    "  📂 扫描路径: " ++ commas c.paths,
    "  📁 输出目录: " ++ c.output,
    "  🧵 并发数: " ++ toString c.workers,
    "",
    "📁 文件过滤:",
    "  ✅ 包含: " ++ commas c.wanted,
    "  ❌ 排除: " ++ commas (c.unwanted.take 3) ++ (if c.unwanted.length > 3 then "..." else ""),
    "",
    "🔎 分析:",
    "  🧪 分析器: " ++ commas c.checks,
    "  🙈 ignore: " ++ toString c.ignore.length ++ " 条",
    "  🚦 severity: " ++ c.severity.text ++
      (if c.warningsAsErrors then "（warning 视为 error）" else ""),
    "  🗂️  manifest: " ++ (if c.manifest = "" then "禁用" else c.manifest),
    "  🧭 私有化检查跳过框架入口: " ++ (if c.exemptLikelyRoots then "是" else "否"),
    "  📝 有文档即视为公开 API: " ++ (if c.documentedIsRoot then "是" else "否"),
    "",
    "📊 报告:",
    "  🌐 HTML: " ++ (if c.htmlReport then "开启" else "关闭"),
    "  🕸️  调用图: " ++ (if c.graph then "开启 (" ++ c.format ++ ")" else "关闭")]

end Deadwood.Config
