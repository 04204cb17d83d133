import MiniPascal.Compiler
import MiniPascal.Machine.Run

/-!
# Sessions

One compiler and one machine, fed with source after source.
-/

namespace MiniPascal

/-- A compiler and the machine that runs what it compiles. -/
structure Session where
  compiler : Compiler
  machine : Machine

/-- What became of a source. -/
inductive Outcome where
  | failed (failure : CompileFailure)
  | ran (result : Except Signal Unit)

namespace Session

/-- A session before its first source. -/
def start (options : CompileOptions) (host : Host) : Session where
  compiler := .start options
  machine := .start host

/-- Compiles a source and, if that succeeds, runs it.  Reports and output of earlier sources are
dropped. -/
def feed (session : Session) (files : FileTree) (fuel : Nat) (source : Source) :
    Outcome × Session :=
  let machine := session.machine.clearOutput
  match session.compiler.clear.compile files source with
  | (.error failure, compiler) => (.failed failure, { compiler, machine })
  | (.ok compilation, compiler) =>
      let (result, machine) :=
        (machine.addLocals compilation.locals).interpret fuel compilation.program
      (.ran result, { compiler, machine })

end Session

end MiniPascal
