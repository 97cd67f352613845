/-!
# An example of a configuration

The text of a configuration file with all options and what they mean, for a start.
-/

namespace Deadwood.Config

/-- The lines of the example. -/
def exampleLines : List String := [
  "# callclinic 配置文件",
  "version: \"1.0\"",
  "",
  "# 基础配置",
  "paths:",
  "  - \"src\"",
  "output: \"callclinic_results\"",
  "",
  "# 文件过滤",
  "include:",
  "  - \"**/*.py\"",
  "exclude:",
  "  - \"**/tests/**\"",
  "  - \"**/test_*.py\"",
  "  - \"**/conftest.py\"",
  "  - \"**/.venv/**\"",
  "  - \"**/__pycache__/**\"",
  "  - \"**/build/**\"",
  "  - \"**/dist/**\"",
  "",
  "# 分析器: private（可收窄为私有）| unused（未使用）| recursive_only（仅被递归调用）",
  "checks:",
  "  - private",
  "  - unused",
  "  - recursive_only",
  "",
  "# 忽略规则（匹配的符号视为根，不报告）",
  "#   \"pkg.mod\"                       整个作用域",
  "#   \"re:^pkg\\\\.legacy\\\\.\"           作用域正则",
  "#   [\"pkg.mod\", \"handler\", 1]       精确符号（\"_\" 为通配）",
  "#   [\"pkg.mod\", \"load\", \"1..2\"]     参数个数范围",
  "#   [\"pkg.models.User\", \"__struct__\", 0]   类及其字段构造器",
  "ignore: []",
  "",
  "# 诊断级别: hint | information | warning | error",
  "severity: \"hint\"",
  "warnings_as_errors: false",
  "",
  "# 增量分析清单（空字符串禁用）",
  "manifest: \".callclinic/manifest.json\"",
  "",
  "# 报告",
  "html_report: false",
  "graph: false",
  "format: \"svg\"",
  "workers: 4",
  "",
  "# 启发式",
  "narrow_skip_likely_roots: true",
  "documented_is_root: false"]

/-- The text of the example. -/
def exampleText : String := String.join (exampleLines.map (· ++ "\n"))

end Deadwood.Config
