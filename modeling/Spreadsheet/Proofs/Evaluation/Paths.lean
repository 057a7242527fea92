import Spreadsheet.Proofs.Evaluation.Dialogue

/-!
# The states between two answers

A computation shows only the state that it leaves.  To see the states on the way, the same computation is run on states
that also carry a list of those passed so far: `Resolver.noting` answers like a given resolver and adds the states that
each answer passes.  If these are paths of single updates, then so are the states noted by every computation that asks
the resolver (`IsDialogue.path`).
-/

namespace Spreadsheet

variable {σ α : Type} {R : σ → σ → Prop}

/-! ### Paths -/

/-- The states after the first one, up to the last one, each an update of the one before. -/
inductive Path (R : σ → σ → Prop) : σ → List σ → σ → Prop
  | nil (s : σ) : Path R s [] s
  | cons {s t u : σ} {ts : List σ} (h : R s t) (hs : Path R t ts u) : Path R s (t :: ts) u

namespace Path

theorem single {s t : σ} (h : R s t) : Path R s [t] t :=
  .cons h (.nil t)

theorem append {s t u : σ} {ss ts : List σ} (h : Path R s ss t) (h' : Path R t ts u) : Path R s (ss ++ ts) u := by
  induction h with
  | nil => exact h'
  | cons h _ ih => exact .cons h (ih h')

/-- What holds at first and after each update holds throughout. -/
theorem forall_mem {I : σ → Prop} (step : ∀ {s t}, R s t → I s → I t) {s t : σ} {ts : List σ} (h : Path R s ts t)
    (hs : I s) : ∀ u ∈ s :: ts, I u := by
  induction h with
  | nil s =>
    intro u hu
    obtain rfl := List.mem_singleton.1 hu
    exact hs
  | cons h _ ih =>
    intro u hu
    rcases List.mem_cons.1 hu with rfl | hu
    · exact hs
    · exact ih (step h hs) u hu

/-- What each update does to a state, once or several times in turn, is what happens between any two states. -/
theorem pairwise {P : σ → σ → Prop} (refl : ∀ s, P s s) (trans : ∀ {s t u}, P s t → P t u → P s u)
    (step : ∀ {s t}, R s t → P s t) {s t : σ} {ts : List σ} (h : Path R s ts t) : (s :: ts).Pairwise P := by
  induction h with
  | nil s => exact List.pairwise_singleton P s
  | @cons s t u ts h hs ih =>
    refine List.pairwise_cons.2 ⟨?_, ih⟩
    have hfirst : ∀ w ∈ t :: ts, P t w := by
      intro w hw
      rcases List.mem_cons.1 hw with rfl | hw
      · exact refl w
      · exact (List.pairwise_cons.1 ih).1 w hw
    exact fun w hw => trans (step h) (hfirst w hw)

end Path

/-! ### Noting the states -/

namespace Eval

/-- Run a computation on the state at hand, and add the states that it passes to those noted before. -/
def noting (x : Eval σ α) (moments : σ → List σ) : Eval (σ × List σ) α := do
  let p ← get
  let (r, s) := x.runFrom p.1
  set (s, p.2 ++ moments p.1)
  ofExcept r

theorem runFrom_noting (x : Eval σ α) (moments : σ → List σ) (p : σ × List σ) :
    (x.noting moments).runFrom p = ((x.runFrom p.1).1, (x.runFrom p.1).2, p.2 ++ moments p.1) := by
  unfold noting
  rw [runFrom_get_bind, runFrom_set_bind, runFrom_ofExcept]

end Eval

/-- The same answers, with the states passed on the way to each of them. -/
def Resolver.noting (r : Resolver σ) (moments : Question → σ → List σ) : Resolver (σ × List σ) where
  cell sheet a := (r.cell sheet a).noting (moments (.cell sheet a))
  name id := (r.name id).noting (moments (.name id))
  shared anchor := (r.shared anchor).noting (moments (.shared anchor))

theorem Resolver.runFrom_noting (r : Resolver σ) (moments : Question → σ → List σ) (q : Question) (p : σ × List σ) :
    ((r.noting moments).answer q).runFrom p =
      (((r.answer q).runFrom p.1).1, ((r.answer q).runFrom p.1).2, p.2 ++ moments q p.1) := by
  cases q with
  | cell sheet a => exact Eval.runFrom_noting _ _ p
  | name id => exact Eval.runFrom_noting _ _ p
  | shared anchor => exact Eval.runFrom_noting _ _ p

namespace IsDialogue

variable {F : ∀ σ : Type, Resolver σ → Eval σ α}

/-- Taking notes changes neither the outcome nor the state. -/
theorem runFrom_noting (hF : IsDialogue F) (r : Resolver σ) (moments : Question → σ → List σ) (p : σ × List σ) :
    ((F _ (r.noting moments)).runFrom p).1 = ((F σ r).runFrom p.1).1 ∧
      ((F _ (r.noting moments)).runFrom p).2.1 = ((F σ r).runFrom p.1).2 := by
  have key := hF.run_related (r := r.noting moments) (m := r) (R := fun p s => p.1 = s) (E := fun _ => False)
    (B := fun _ => True) (fun _ _ _ => trivial) ?_ (fun _ _ hE => hE) (s := p) rfl trivial
  · exact key.resolve_right id
  · rintro q p _ rfl -
    rw [Resolver.runFrom_noting]
    exact .inl ⟨rfl, rfl⟩

/-- If each answer takes a path from a state with the property `P` to another one, then so does a computation. -/
theorem path (hF : IsDialogue F) {r : Resolver σ} {moments : Question → σ → List σ} {P : σ → Prop}
    (h : ∀ q s, P s → Path R s (moments q s) ((r.answer q).runFrom s).2 ∧ P ((r.answer q).runFrom s).2) {s : σ}
    (hs : P s) :
    Path R s ((F _ (r.noting moments)).runFrom (s, [])).2.2 ((F σ r).runFrom s).2 ∧ P ((F σ r).runFrom s).2 := by
  have key := hF.run_invariant (r := r.noting moments)
    (P := fun p p' => P p.1 → P p'.1 ∧ ∃ ts, p'.2 = p.2 ++ ts ∧ Path R p.1 ts p'.1)
    (fun p hp => ⟨hp, [], (List.append_nil _).symm, .nil _⟩) ?_ ?_ (s, []) hs
  · obtain ⟨hP, ts, hts, hpath⟩ := key
    rw [(hF.runFrom_noting ..).2] at hP hpath
    rw [hts, List.nil_append]
    exact ⟨hpath, hP⟩
  · intro p₁ p₂ p₃ h₁ h₂ hp
    obtain ⟨hp₂, ts, hts, hpath⟩ := h₁ hp
    obtain ⟨hp₃, ts', hts', hpath'⟩ := h₂ hp₂
    exact ⟨hp₃, ts ++ ts', by rw [hts', hts, List.append_assoc], hpath.append hpath'⟩
  · intro q p hp
    rw [Resolver.runFrom_noting]
    obtain ⟨hpath, hP⟩ := h q p.1 hp
    exact ⟨hP, moments q p.1, rfl, hpath⟩

end IsDialogue

end Spreadsheet
