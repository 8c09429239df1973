/-!
# Numbers and calls

A power of a natural number or an integer is always the one that the numbers come with, also where an
algebraic library has powers in any monoid.

Calls with a state, one after the other: the second one goes on with what the first returns, and does
not happen when that raises.

    c s = ok a t, so (c >>= f) s = f a t                             (bind_of_ok)
    c s = error e t, so (c >>= f) s = error e t                      (bind_of_error)
    c s = d s', so (c >>= f) s = (d >>= g) s' if f and g agree       (bind_congr_of_ok)
-/

namespace CasStore

attribute [instance (high), default_instance (high + 1)] instPowNat

section

variable {ε σ α β : Type} {c : EStateM ε σ α} {f : α → EStateM ε σ β} {s t : σ}

theorem bind_of_ok {a : α} (h : c s = .ok a t) : (c >>= f) s = f a t := by
  show EStateM.bind c f s = f a t
  unfold EStateM.bind
  rw [h]

theorem bind_of_error {e : ε} (h : c s = .error e t) : (c >>= f) s = .error e t := by
  show EStateM.bind c f s = .error e t
  unfold EStateM.bind
  rw [h]

theorem bind_congr_of_ok {d : EStateM ε σ α} {g : α → EStateM ε σ β} {s' : σ} (hcd : c s = d s')
    (hfg : ∀ a t, c s = .ok a t → f a t = g a t) : (c >>= f) s = (d >>= g) s' := by
  cases hc : c s with
  | ok a t => rw [bind_of_ok hc, bind_of_ok (hcd ▸ hc), hfg a t hc]
  | error e t => rw [bind_of_error hc, bind_of_error (hcd ▸ hc)]

theorem get_bind (g : σ → EStateM ε σ α) (s : σ) : (get >>= g) s = g s s := rfl

end

end CasStore
