import CasStore.Program

/-!
# Long chains

Programs of any length, by which it can be seen how work grows with it.  `countdown` goes deeper with
every turn; `counting` and `failing` have one stage after another.
-/

namespace CasStore.Program

variable {σ : Type}

/-- Goes on with the next smaller countdown until it is done. -/
def countdown : Nat → Program σ
  | 0 => pure (.text "done")
  | n + 1 => (pure (.int n)).andThen fun _ s => .ok (.program (countdown n)) s

/-- One more than the value; other values than numbers are refused. -/
def increase (v : Value) : σ → Reply σ (Next (Program σ)) := fun s =>
  match v with
  | .int i => .ok (.program (pure (.int (i + 1)))) s
  | _ => .error (.invalidValue "bad operand") s

/-- Counts from 0 in `n` stages. -/
def counting (n : Nat) : Program σ := .mk (.pure (.int 0)) (List.replicate n (.andThen increase))

/-- An error that says a number. -/
def numbered (i : Int) : Fault := .store (Fault.make .notFound (Numeral.text i))

/-- Fails with the number after the one that an error says. -/
def failAgain (e : Fault) : σ → Reply σ (Next (Program σ)) := fun s =>
  match Numeral.read e.message with
  | .ok i => .ok (.program (fail (numbered (i + 1)))) s
  | .error p => .error (.ofNumeral p) s

/-- Fails with 0, and in each of `n` stages with the next number. -/
def failing (n : Nat) : Program σ := .mk (.fail (numbered 0)) (List.replicate n (.orElse failAgain))

end CasStore.Program
