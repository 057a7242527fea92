import Spreadsheet.Workbook.Action

/-!
# Runs of actions

An action that fails leaves the state that it has made by then.  It is `Atomic` if this is the state that it was run on,
whatever the reason for the failure is.  Checks come first in an atomic action (`atomic_check_bind`), and only what
cannot fail any more follows on a change (`Total.atomic`).
-/

namespace Spreadsheet.Action

variable {σ α β : Type}

/-! ### Steps of a run -/

@[simp] theorem runOn_pure (a : α) (s : σ) : (pure a : Action σ α).runOn s = (.ok a, s) := rfl

@[simp] theorem runOn_modify (f : σ → σ) (s : σ) : (modify f : Action σ PUnit).runOn s = (.ok ⟨⟩, f s) := rfl

/-- A check does not touch the state. -/
@[simp] theorem runOn_check (r : Except WorkbookError α) (s : σ) : (liftM r : Action σ α).runOn s = (r, s) := by
  cases r <;> rfl

theorem runOn_bind (x : Action σ α) (f : α → Action σ β) (s : σ) :
    (x >>= f).runOn s = match x.runOn s with
      | (.ok a, s') => (f a).runOn s'
      | (.error e, s') => (.error e, s') := by
  show (ExceptT.bindCont f (x.run s).1) (x.run s).2 = _
  unfold runOn
  rcases x.run s with ⟨_ | _, _⟩ <;> rfl

theorem runOn_get_bind (f : σ → Action σ β) (s : σ) : (get >>= f).runOn s = (f s).runOn s := rfl

theorem runOn_modify_bind (f : σ → σ) (g : PUnit → Action σ β) (s : σ) :
    (modify f >>= g).runOn s = (g ⟨⟩).runOn (f s) := rfl

theorem runOn_check_bind (r : Except WorkbookError α) (f : α → Action σ β) (s : σ) :
    (liftM r >>= f).runOn s = match r with
      | .ok a => (f a).runOn s
      | .error e => (.error e, s) := by
  cases r <;> rfl

theorem runOn_check_bind_eq_ok {r : Except WorkbookError α} {f : α → Action σ β} {s t : σ} {b : β} :
    (liftM r >>= f).runOn s = (.ok b, t) ↔ ∃ a, r = .ok a ∧ (f a).runOn s = (.ok b, t) := by
  rw [runOn_check_bind]
  cases r <;> simp

private theorem runOn_map (f : α → β) (x : Action σ α) (s : σ) :
    (f <$> x).runOn s = ((x.runOn s).1.map f, (x.runOn s).2) := by
  rw [← bind_pure_comp, runOn_bind]
  rcases x.runOn s with ⟨e | a, s'⟩ <;> rfl

theorem runOn_discard (x : Action σ α) (s : σ) :
    (discard x).runOn s = ((x.runOn s).1.map fun _ => ⟨⟩, (x.runOn s).2) :=
  runOn_map ..

theorem runOn_discard_eq_ok {x : Action σ α} {s t : σ} :
    (discard x).runOn s = (.ok (), t) ↔ ∃ a, x.runOn s = (.ok a, t) := by
  rw [runOn_discard]
  rcases x.runOn s with ⟨e | a, s'⟩ <;> simp [Except.map]

/-! ### What a failure leaves -/

/-- A run that fails leaves the state that it began with. -/
def Atomic (x : Action σ α) : Prop :=
  ∀ s e, (x.runOn s).1 = .error e → (x.runOn s).2 = s

/-- No run fails. -/
def Total (x : Action σ α) : Prop :=
  ∀ s, ∃ a, (x.runOn s).1 = .ok a

theorem Total.atomic {x : Action σ α} (h : x.Total) : x.Atomic := by
  intro s e he
  obtain ⟨a, ha⟩ := h s
  cases ha.symm.trans he

theorem total_pure (a : α) : (pure a : Action σ α).Total :=
  fun _ => ⟨a, rfl⟩

theorem total_modify (f : σ → σ) : (modify f : Action σ PUnit).Total :=
  fun _ => ⟨⟨⟩, rfl⟩

theorem Total.bind {x : Action σ α} {f : α → Action σ β} (h : x.Total) (hf : ∀ a, (f a).Total) : (x >>= f).Total := by
  intro s
  obtain ⟨a, ha⟩ := h s
  obtain ⟨b, hb⟩ := hf a (x.runOn s).2
  refine ⟨b, ?_⟩
  rw [runOn_bind]
  rcases hrun : x.runOn s with ⟨r, s'⟩
  rw [hrun] at ha hb
  obtain rfl : r = .ok a := ha
  exact hb

/-- What is done after looking at the state may depend on it. -/
theorem atomic_get_bind {f : σ → Action σ α} (h : ∀ s, (f s).Atomic) : (get >>= f).Atomic :=
  fun s e he => h s s e he

/-- A check that fails is followed by nothing. -/
theorem atomic_check_bind {r : Except WorkbookError α} {f : α → Action σ β} (h : ∀ a, (f a).Atomic) :
    (liftM r >>= f).Atomic := by
  intro s e he
  rw [runOn_check_bind] at he ⊢
  cases r with
  | error e' => rfl
  | ok a => exact h a s e he

theorem Atomic.discard {x : Action σ α} (h : x.Atomic) : (discard x).Atomic := by
  intro s e he
  rw [runOn_discard] at he ⊢
  cases hx : (x.runOn s).1 with
  | error e' => exact h s e' hx
  | ok a =>
    rw [hx] at he
    cases he

end Spreadsheet.Action
