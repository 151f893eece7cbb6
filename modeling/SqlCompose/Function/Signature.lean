import SqlCompose.Function.Basic
import SqlCompose.Render

/-! # Signatures — functions with a fixed list of parameters

    A call of such a function has one argument for each parameter. -/

namespace SqlCompose

/-- A function and the names of its parameters. -/
structure Signature where
  name       : String
  parameters : List String
deriving DecidableEq

namespace Signature

/-- The arguments written out, to be shown in an error. -/
def shown (arguments : List Term) : Except BuildError (List String) :=
  arguments.mapM fun t => (t.draft default).text default

/-- A call with the given arguments. If their number is wrong, the error shows them; one that
    cannot be written is an error of its own. -/
def call (s : Signature) (arguments : List Term) : Except BuildError Function :=
  if arguments.length = s.parameters.length then .ok (.plain s.name arguments)
  else do .error (.wrongArguments s.name s.parameters (← shown arguments))

end Signature

end SqlCompose
