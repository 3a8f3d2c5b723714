import Noema.Lib.PyRuntime

/-!
# Triples

`Triple P x Q E`: a run of `x` from a state with `P` ends with `Q a` when it returns `a`, and with
`E e` when it raises `e`. Both ends are about the state after the run, since an exception keeps the
updates made before it.

- a rule for each way to build a computation (`Triple.pure`, `Triple.lift`, `Triple.bind`,
  `Triple.tryCatch`, ...). `Triple.tryCatch` is the rule that matters: what holds when the body
  raises is what the handler starts from;
- `Triple.keeps_pure`, `Triple.keeps_lift`, `Triple.keeps_get`: what has no effect keeps `P`;
- `Triple.lift_eq`, `Triple.of_pure`: what pure code returned is known to the rest. A part that was
  lifted returned its value, so an equation about it can be assumed from there on;
- `Triple.of_keeps`: a relation between the states before and after, as a triple;
- `Triple.run`, `Triple.returns`: what a triple says about a run.
-/

namespace Noema.Lib.PyM

variable {σ α β : Type}

theorem bind_assoc {γ : Type} (x : PyM σ α) (f : α → PyM σ β) (g : β → PyM σ γ) :
    x >>= f >>= g = x >>= fun a => f a >>= g := by
  funext s
  rw [bind_apply, bind_apply, bind_apply]
  rcases x s with ⟨_ | a, s'⟩
  · rfl
  · rfl

/-- What a computation guarantees: `Q` when it returns, `E` when it raises. -/
def Triple (P : σ → Prop) (x : PyM σ α) (Q : α → σ → Prop) (E : PyExc → σ → Prop) : Prop :=
  ∀ s, P s →
    match x s with
    | (.ok a, s') => Q a s'
    | (.error e, s') => E e s'

/-- Nothing is guaranteed. -/
abbrev anything : α → σ → Prop := fun _ _ => True

namespace Triple

variable {P P' : σ → Prop} {Q Q' : α → σ → Prop} {R : β → σ → Prop} {E E' : PyExc → σ → Prop}
  {x y : PyM σ α} {s s' : σ} {a : α}

theorem run (h : Triple P x Q E) (hs : P s) (hrun : x s = (.ok a, s')) : Q a s' := by
  have hpost := h s hs
  rw [hrun] at hpost
  exact hpost

/-- What cannot raise returns. -/
theorem returns (h : Triple P x Q fun _ _ => False) (hs : P s) :
    ∃ a s', x s = (.ok a, s') ∧ Q a s' := by
  have hpost := h s hs
  rcases hrun : x s with ⟨_ | a, s'⟩ <;> rw [hrun] at hpost
  · exact hpost.elim
  · exact ⟨a, s', rfl, hpost⟩

theorem imp (h : Triple P x Q E) (hP : ∀ s, P' s → P s) (hQ : ∀ a s, Q a s → Q' a s)
    (hE : ∀ e s, E e s → E' e s) : Triple P' x Q' E' := by
  intro s hs
  have hpost := h s (hP s hs)
  rcases hrun : x s with ⟨_ | a, s'⟩ <;> rw [hrun] at hpost
  · exact hE _ s' hpost
  · exact hQ a s' hpost

/-- What does not depend on the state may be assumed. -/
theorem of_pure {p : Prop} (h : p → Triple P x Q E) : Triple (fun s => P s ∧ p) x Q E :=
  fun s hs => h hs.2 s hs.1

theorem post (h : Triple P x Q E) (hQ : ∀ a s, Q a s → Q' a s) : Triple P x Q' E :=
  h.imp (fun _ hs => hs) hQ fun _ _ he => he

theorem unreached : Triple (fun _ => False) x Q E := fun _ hs => hs.elim

theorem noRaise (h : Triple P x Q fun _ _ => False) : Triple P x Q E :=
  h.imp (fun _ hs => hs) (fun _ _ hs => hs) fun _ _ => False.elim

/-- What holds at the end, however it ends. -/
theorem final {R : σ → Prop} (h : Triple P x (fun _ => R) fun _ => R) (hs : P s) : R (x s).2 := by
  have hpost := h s hs
  rcases hrun : x s with ⟨_ | a, s'⟩ <;> rw [hrun] at hpost
  · exact hpost
  · exact hpost

/-- What the states before and after share. -/
theorem of_keeps {R : σ → σ → Prop} (h : Keeps R x) (hP : ∀ s s', R s s' → P s → P s') :
    Triple P x (fun _ => P) fun _ => P := by
  intro s hs
  have hkept := hP s (x s).2 (h s) hs
  rcases hrun : x s with ⟨_ | a, s'⟩ <;> rw [hrun] at hkept
  · exact hkept
  · exact hkept

theorem any : Triple P x anything anything := by
  intro s _
  rcases x s with ⟨_ | a, s'⟩ <;> trivial

theorem pure (h : ∀ s, P s → Q a s) : Triple P (pure a) Q E := h

theorem lift {x : Except PyExc α} (hok : ∀ a s, x = .ok a → P s → Q a s)
    (herror : ∀ e s, x = .error e → P s → E e s) : Triple P (PyM.lift x) Q E := by
  intro s hs
  rw [lift_apply]
  cases x with
  | ok a => exact hok a s rfl hs
  | error e => exact herror e s rfl hs

theorem keeps_pure : Triple P (Pure.pure a) (fun _ => P) E := fun _ hs => hs

theorem keeps_lift {x : Except PyExc α} : Triple P (PyM.lift x) (fun _ => P) anything :=
  lift (fun _ _ _ hs => hs) fun _ _ _ _ => trivial

/-- Pure code that returned says so. -/
theorem lift_eq {x : Except PyExc α} :
    Triple P (PyM.lift x) (fun a s => P s ∧ x = .ok a) anything :=
  lift (fun _ _ h hs => ⟨hs, h⟩) fun _ _ _ _ => trivial

theorem modify {f : σ → σ} {Q : Unit → σ → Prop} (h : ∀ s, P s → Q () (f s)) :
    Triple P (PyM.modify f) Q E := h

theorem get {Q : σ → σ → Prop} (h : ∀ s, P s → Q s s) : Triple P PyM.get Q E := h

theorem keeps_get : Triple P (PyM.get : PyM σ σ) (fun _ => P) E := fun _ hs => hs

theorem raise {e : PyExc} (h : ∀ s, P s → E e s) : Triple P (PyM.raise e : PyM σ α) Q E := h

theorem bind {f : α → PyM σ β} (hx : Triple P x Q E) (hf : ∀ a, Triple (Q a) (f a) R E) :
    Triple P (x >>= f) R E := by
  intro s hs
  have hpost := hx s hs
  rw [bind_apply]
  rcases hrun : x s with ⟨_ | a, s'⟩ <;> rw [hrun] at hpost
  · exact hpost
  · exact hf a s' hpost

/-- Nothing has to be known about a first part. -/
theorem any_bind {f : α → PyM σ β} (hf : ∀ a, Triple (fun _ => True) (f a) R anything) :
    Triple P (x >>= f) R anything :=
  any.bind hf

theorem tryCatch {handler : PyExc → PyM σ α} (hx : Triple P x Q E)
    (hhandler : ∀ e, Triple (E e) (handler e) Q E') : Triple P (PyM.tryCatch x handler) Q E' := by
  intro s hs
  have hpost := hx s hs
  rw [PyM.tryCatch]
  rcases hrun : x s with ⟨e | a, s'⟩ <;> rw [hrun] at hpost
  · exact hhandler e s' hpost
  · exact hpost

theorem ite {p : Prop} [Decidable p] (hx : p → Triple P x Q E) (hy : ¬p → Triple P y Q E) :
    Triple P (if p then x else y) Q E := by
  split
  next hp => exact hx hp
  next hp => exact hy hp

end Triple

end Noema.Lib.PyM
