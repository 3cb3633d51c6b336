import CodeOutline.Text.Lines

/-! # The first settings file

The text that a new settings file starts with. It says what can be set.
-/

namespace CodeOutline.Command

def templateLines : List String := [
  "# docscan configuration",
  "# Placed in the scanned directory, or in ~/.docscan/config.toml for all projects.",
  "",
  "[scan]",
  "# Directory names skipped entirely",
  "# ignore_dirs = [\".git\", \"node_modules\", \"target\", \"vendor\", \"dist\", \"build\"]",
  "",
  "# Files with these extensions are left out of the tree",
  "# ignore_extensions = [\".png\", \".jpg\", \".lock\", \".log\", \".map\"]",
  "",
  "# Glob patterns (relative to the scanned directory) listed in the tree",
  "# but not analyzed",
  "exclude = [",
  "    \"**/generated/**\",",
  "]",
  "",
  "# Files of this size in bytes or larger are not read",
  "max_file_size = 102400",
  "",
  "# Signatures listed per file",
  "max_signatures = 25",
  "",
  "# Respect .gitignore files",
  "respect_gitignore = false",
  "",
  "# Map extra extensions to a supported language (see `docscan languages`)",
  "[languages.extensions]",
  "# \".pyi\" = \"python\"",
  "",
  "# Replace the built-in pattern for a language. The pattern must use the",
  "# named groups of the language's family, e.g. name/args/ret for \"keyword\".",
  "[languages.patterns]",
  "# go = 'func\\s+(?P<name>\\w+)\\s*\\((?P<args>[^)]*)\\)\\s*(?P<ret>[^\x7b]*)\\\x7b'"]

/-- The text of a new settings file. -/
def template : String := Text.unlines templateLines

end CodeOutline.Command
