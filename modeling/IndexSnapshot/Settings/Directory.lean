/-!
# Where settings are kept
-/

namespace IndexSnapshot.Settings

/-- The directory of the program. -/
structure Directory where
  path : String
  deriving DecidableEq, Repr

namespace Directory

/-- The usual directory of a user with the given home. -/
def ofHome (home : String) : Directory := ⟨home ++ "/.pypi-snapshot"⟩

/-- The settings file. -/
def settingsFile (d : Directory) : String := d.path ++ "/settings.json"

/-- The directory of the log files. -/
def logs (d : Directory) : String := d.path ++ "/logs"

end Directory

end IndexSnapshot.Settings
