import CodeOutline.Text.Raw

/-! # Environments

What a program finds around it, the files apart.
-/

namespace CodeOutline

structure Environment where
  /-- The working directory, an absolute path. -/
  cwd : RawText
  /-- The directory of the user. -/
  home : Option RawText
  /-- The directory for settings of the user, where it is not the usual one. -/
  settingsDirectory : Option RawText
  /-- The directory for settings of other programs, where it is not the usual one. -/
  configHome : Option RawText
  deriving DecidableEq, Repr

end CodeOutline
