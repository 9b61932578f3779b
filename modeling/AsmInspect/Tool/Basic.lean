import AsmInspect.Dict
import AsmInspect.Failure
import AsmInspect.Text.Utf8

/-!
# Tool runs

A tool is run with arguments and options, and answers with an exit code and its output. An exit code
other than zero is an answer like any other.

## Main definitions

* `ToolOptions`, `ToolCall`: how a tool is run
* `SystemPath`: a path as the system has it
* `ToolResult`: what a tool run gives
-/

namespace AsmInspect

/-- The options of a tool run. -/
structure ToolOptions where
  /-- The stage that a failure of the run belongs to. -/
  stage : Stage
  /-- The most bytes kept of each output. -/
  maxOutput : UInt64
  cwd : Option String := none
  env : Dict String := {}
  timeoutMs : Option UInt64 := none
  /-- The text that the tool reads. -/
  input : Option String := none
  deriving DecidableEq

/-- A tool with its arguments and options. -/
structure ToolCall where
  program : String
  args : List String
  options : ToolOptions
  deriving DecidableEq

/-- A path as the system has it. Paths are bytes, and not all of them are texts. -/
inductive SystemPath where
  | text (path : String)
  | raw (bytes : List UInt8) (notText : Utf8.decode? bytes = none)
  deriving DecidableEq

namespace SystemPath

/-- The text of a path that is one. -/
def text? : SystemPath → Option String
  | text path => some path
  | raw .. => none

/-- The path as it is shown and asked about. -/
def shown : SystemPath → String
  | text path => path
  | raw bytes _ => String.ofList (Utf8.decodeLossy bytes)

end SystemPath

/-- What a tool run gives. -/
structure ToolResult where
  /-- The exit code; -1 for a tool that was killed. -/
  code : Int32 := 0
  stdout : String := ""
  stderr : String := ""
  execTimeMs : UInt64 := 0
  /-- The directory that the tool ran in. -/
  dirPath : Option SystemPath := none
  /-- Whether some output was not kept. -/
  truncated : Bool := false
  deriving DecidableEq, Inhabited

/-- Whether the tool was content. -/
def ToolResult.success (result : ToolResult) : Bool := result.code == 0

end AsmInspect
