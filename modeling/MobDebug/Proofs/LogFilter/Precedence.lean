import MobDebug.Proofs.LogFilter.Replacement
import MobDebug.Proofs.Text.Blank
import MobDebug.Proofs.Lists

/-!
Which filter is in force. The environment overrides the configured level, and what is malformed on
one side leaves the other side alone. A character that is torn is the one fault that is not passed
over.
-/
namespace MobDebug.LogFilter

variable {level own text : String} {environment : Option String} {ds es : List Directive}
  {fault : Directive.Fault} {f : LogFilter}

/-! ### Normal levels -/

/-- What the environment says, without the blanks around it. A blank text says nothing. -/
def spoken (environment : Option String) : Option String :=
  ((environment.map fun e => Text.trim e.toList).filter (!·.isEmpty)).map String.ofList

section
variable (hs : spoken environment = some own)
include hs

end

end MobDebug.LogFilter
