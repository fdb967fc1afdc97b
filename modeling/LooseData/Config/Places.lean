import LooseData.Config.FilePath
import LooseData.Fault

set_option autoImplicit false

/-! # Where configuration files are

The defaults are part of the installation. The user's configuration is in a directory that a
variable may name. The project's is below the project's root: the nearest directory, from the
working directory upwards, that has one of the marks of a project.
-/

namespace LooseData.Config

/-- The variable that names the directory of the user's configuration. -/
def directoryVariable : String := "STEPDATA_CONFIG_DIR"

/-- The name of every configuration file. -/
def fileName : String := "config.yaml"

/-- The directory of the project's configuration below the root. -/
def projectDirectory : String := ".stepdata"

/-- The entries by which a directory is known to be the root of a project. -/
def projectMarks : List String := [projectDirectory, "pyproject.toml", "setup.cfg", ".git"]

/-- Whether a directory is the root of a project. -/
def isRoot (s : Surroundings) (directory : FilePath) : Bool :=
  projectMarks.any fun mark => (s.look (directory.child mark)).isPresent

/-- The root of the project that a directory belongs to; a directory without a project is its
own root. -/
def rootOf (s : Surroundings) (start : FilePath) : FilePath :=
  let start := start.resolveIn s.directory
  (start.upwards.find? (isRoot s)).getD start

/-- The variable that names the user's home. -/
def homeVariable : String := "HOME"

/-- The text without the slashes at its end; nothing but slashes is the root. -/
def withoutEndSlashes (s : String) : String :=
  let kept := (s.toList.reverse.dropWhile (· == '/')).reverse
  if kept.isEmpty then "/" else String.ofList kept

/-- The user's home. A tilde stands for a home itself and so cannot start the name of one. -/
def home (s : Surroundings) : Except Fault FilePath :=
  let name := withoutEndSlashes ((s.valueOf? homeVariable).getD "")
  if name.startsWith "~" then .error .homeless else .ok (.ofText name)

/-- The directory of the user's configuration: the one that the variable for it names, else one
below the user's home. -/
def userDirectory (s : Surroundings) : Except Fault FilePath :=
  match (s.valueOf? directoryVariable).filter fun name => !name.isEmpty with
  | some name => .ok (.ofText name)
  | none => (home s).map fun home => (home.child ".config").child "stepdata"

/-- The user's configuration file. -/
def userFile (s : Surroundings) : Except Fault FilePath :=
  (userDirectory s).map fun directory => directory.child fileName

/-- The file with the defaults. -/
def defaultsFile (s : Surroundings) : FilePath := (s.installation.child "defaults").child fileName

/-- The configuration file of the project with a root. -/
def projectFile (root : FilePath) : FilePath := (root.child projectDirectory).child fileName

end LooseData.Config
