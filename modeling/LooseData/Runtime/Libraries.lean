import LooseData.Command.Libraries
import LooseData.Layer.Assign
import LooseData.Runtime.Arguments.Reading
import LooseData.Runtime.Layout
import LooseData.Runtime.Settings.Validation
import LooseData.Runtime.Text.Terminal
import LooseData.Runtime.Yaml.Reader
import LooseData.Runtime.Yaml.Writer

set_option autoImplicit false

/-! # The surroundings at run time

Libraries, memory and an installation for running the program. They go as far as the program needs
them, and nothing that is proved about the program depends on them.
-/

namespace LooseData.Runtime

/-- The memory of a run. -/
scoped instance memory : Memory := .large

/-- The libraries that a run uses. -/
def libraries : Command.Libraries where
  reader := Yaml.read
  writeDocument := Yaml.write
  maker := Settings.make
  listed := Settings.listed
  layOut := Value.laidOut
  echo := Text.plain
  readGroup := Command.readGroup
  readForm := Command.readForm

/-- The directory that the program is installed in. -/
def installation : FilePath := .absolute ["usr", "lib", "stepdata"]

/-- The defaults that are installed with the program. -/
def defaults : String :=
  "\x7b\"version\": 1, \"logging\": \x7b\"level\": \"info\"\x7d, \"parsing\": \x7b\"max_depth\": null\x7d, "
    ++ "\"world\": \x7b\x7d\x7d"

/-- What there is at a path, the files of the installation included. -/
def withInstallation (entry : FilePath → FileEntry) (path : FilePath) : FileEntry :=
  if path == (installation.child "defaults").child Config.fileName then .file defaults
  else if path.parts.isPrefixOf (installation.child "defaults").parts then .directory
  else entry path

end LooseData.Runtime
