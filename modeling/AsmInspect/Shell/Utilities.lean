import AsmInspect.Shell.Utility.Files
import AsmInspect.Shell.Utility.Lines
import AsmInspect.Shell.Utility.Values

/-!
# The programs by name

## Main definitions

* `Shell.utilities`, `Shell.utility?`: the programs that scripts are made of
-/

namespace AsmInspect.Shell

/-- The programs by name. -/
def utilities : List (String × Utility) :=
  [("cat", Utility.cat), ("head", Utility.head), ("tail", Utility.tail), ("tr", Utility.tr),
    ("sed", Utility.sed), ("grep", Utility.grep), ("wc", Utility.wc), ("sort", Utility.sort),
    ("uniq", Utility.uniq), ("tac", Utility.tac), ("nl", Utility.nl), ("expr", Utility.expr),
    ("dd", Utility.dd), ("rev", Utility.rev), ("seq", Utility.seq), ("yes", Utility.yes),
    ("basename", Utility.basename), ("dirname", Utility.dirname), ("sleep", Utility.sleep),
    ("mkdir", Utility.mkdir), ("touch", Utility.touch), ("rm", Utility.rm),
    ("cp", Utility.copy "cp" false), ("mv", Utility.copy "mv" true), ("chmod", Utility.chmod),
    ("ls", Utility.ls), ("tee", Utility.tee), ("cut", Utility.cut),
    ("true", fun _ process => process), ("false", fun _ process => { process with status := 1 }),
    ("echo", Utility.echo),
    ("printf", fun args process => process.print (printfText ((args.head?).getD []) args.tail)),
    ("pwd", fun _ process => process.print (ofString process.cwd ++ ['\n']))]

/-- The program of a name. -/
def utility? (name : String) : Option Utility := (utilities.find? (·.1 == name)).map (·.2)

end AsmInspect.Shell
