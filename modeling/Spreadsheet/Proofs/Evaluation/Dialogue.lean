import Mathlib.Tactic.Choose
import Spreadsheet.Evaluation.Resolver

/-!
# Dialogues

A computation that asks a resolver is a dialogue: a finite tree that is either finished or asks one question and goes
on with each possible answer.  `IsDialogue` says that a computation does the same thing for all resolvers, whatever
their states are: there is one dialogue that all its runs follow.  The property is closed under the operations of
`Eval`, so that what holds of every dialogue (`Dialogue.run_invariant`) holds of every such computation.
-/

namespace Spreadsheet

/-! ### Runs from a state -/

namespace Eval

variable {σ α β : Type}

/-- The outcome of a computation and the state that it leaves. -/
def runFrom (x : Eval σ α) (s : σ) : Except FormulaError α × σ :=
  x.run s

theorem ext_runFrom {x y : Eval σ α} (h : ∀ s, x.runFrom s = y.runFrom s) : x = y :=
  funext h

@[simp] theorem runFrom_pure (a : α) (s : σ) : (pure a : Eval σ α).runFrom s = (.ok a, s) := rfl

@[simp] theorem runFrom_throw (e : FormulaError) (s : σ) : (throw e : Eval σ α).runFrom s = (.error e, s) := rfl

@[simp] theorem runFrom_ofExcept (r : Except FormulaError α) (s : σ) : (ofExcept r : Eval σ α).runFrom s = (r, s) := by
  cases r <;> rfl

theorem runFrom_bind (x : Eval σ α) (f : α → Eval σ β) (s : σ) :
    (x >>= f).runFrom s = match x.runFrom s with
      | (.ok a, s') => (f a).runFrom s'
      | (.error e, s') => (.error e, s') := by
  show (ExceptT.bindCont f (x.run s).1) (x.run s).2 = _
  unfold runFrom
  rcases x.run s with ⟨_ | _, _⟩ <;> rfl

theorem runFrom_bind_eq_ok {x : Eval σ α} {f : α → Eval σ β} {s t : σ} {b : β} :
    (x >>= f).runFrom s = (.ok b, t) ↔ ∃ a s', x.runFrom s = (.ok a, s') ∧ (f a).runFrom s' = (.ok b, t) := by
  rw [runFrom_bind]
  rcases x.runFrom s with ⟨e | a, s'⟩
  · simp
  · constructor
    · exact fun h => ⟨a, s', rfl, h⟩
    · rintro ⟨_, _, ⟨⟩, h⟩
      exact h

theorem runFrom_map (f : α → β) (x : Eval σ α) (s : σ) :
    (f <$> x).runFrom s = ((x.runFrom s).1.map f, (x.runFrom s).2) := by
  rw [← bind_pure_comp, runFrom_bind]
  rcases x.runFrom s with ⟨e | a, s'⟩ <;> rfl

theorem runFrom_mapM_cons {f : α → Eval σ β} {a : α} {xs : List α} {b : β} {ys : List β} {s t : σ} :
    ((a :: xs).mapM f).runFrom s = (.ok (b :: ys), t) ↔
      ∃ s', (f a).runFrom s = (.ok b, s') ∧ (xs.mapM f).runFrom s' = (.ok ys, t) := by
  rw [List.mapM_cons, runFrom_bind_eq_ok]
  constructor
  · rintro ⟨b', s', ha, h⟩
    obtain ⟨ys', t', hxs, ⟨⟩⟩ := runFrom_bind_eq_ok.1 h
    exact ⟨s', ha, hxs⟩
  · rintro ⟨s', ha, hxs⟩
    exact ⟨b, s', ha, runFrom_bind_eq_ok.2 ⟨ys, t, hxs, rfl⟩⟩

/-- What follows on a computation may use what holds of its values. -/
theorem bind_congr_ok {x : Eval σ α} {f g : α → Eval σ β}
    (h : ∀ s a t, x.runFrom s = (.ok a, t) → f a = g a) : x >>= f = x >>= g := by
  refine ext_runFrom fun s => ?_
  rw [runFrom_bind, runFrom_bind]
  rcases hrun : x.runFrom s with ⟨e | a, t⟩
  · rfl
  · dsimp only
    rw [h s a t hrun]

/-- The same for one run and its outcome. -/
theorem outcome_bind_congr {x : Eval σ α} {f g : α → Eval σ β} {s : σ}
    (h : ∀ a t, x.runFrom s = (.ok a, t) → ((f a).runFrom t).1 = ((g a).runFrom t).1) :
    ((x >>= f).runFrom s).1 = ((x >>= g).runFrom s).1 := by
  rw [runFrom_bind, runFrom_bind]
  rcases hrun : x.runFrom s with ⟨e | a, t⟩
  · rfl
  · exact h a t hrun

@[simp] theorem runFrom_observe (x : Eval σ α) (s : σ) :
    x.observe.runFrom s = (.ok (x.runFrom s).1, (x.runFrom s).2) := rfl

@[simp] theorem runFrom_observe_bind (x : Eval σ α) (f : Except FormulaError α → Eval σ β) (s : σ) :
    (x.observe >>= f).runFrom s = (f (x.runFrom s).1).runFrom (x.runFrom s).2 := by
  rw [runFrom_bind, runFrom_observe]

@[simp] theorem runFrom_get_bind (f : σ → Eval σ β) (s : σ) :
    ((get : Eval σ σ) >>= f).runFrom s = (f s).runFrom s := rfl

@[simp] theorem runFrom_set_bind (s' : σ) (f : PUnit → Eval σ β) (s : σ) :
    ((set s' : Eval σ PUnit) >>= f).runFrom s = (f ⟨⟩).runFrom s' := rfl

@[simp] theorem runFrom_modify_bind (g : σ → σ) (f : PUnit → Eval σ β) (s : σ) :
    ((modify g : Eval σ PUnit) >>= f).runFrom s = (f ⟨⟩).runFrom (g s) := rfl

/-- Observing a computation and then failing with it does nothing. -/
private theorem observe_bind_ofExcept (x : Eval σ α) : (x.observe >>= fun r => ofExcept r) = x :=
  ext_runFrom fun s => by rw [runFrom_observe_bind, runFrom_ofExcept]

private theorem observe_observe_bind (x : Eval σ α) (f : Except FormulaError α → Eval σ β) :
    (x.observe >>= f).observe = x.observe >>= fun r => (f r).observe :=
  ext_runFrom fun s => by simp only [runFrom_observe, runFrom_observe_bind]

private theorem observe_ofExcept (r : Except FormulaError α) : (ofExcept r : Eval σ α).observe = pure r :=
  ext_runFrom fun s => by simp only [runFrom_observe, runFrom_ofExcept, runFrom_pure]

theorem ofExcept_bind (r : Except FormulaError α) (f : α → Eval σ β) :
    ofExcept r >>= f = match r with
      | .ok a => f a
      | .error e => throw e := by
  cases r <;> rfl

/-- An outcome after its fault, if it is one, has become an error value. -/
def trapped : Except FormulaError Token → Except FormulaError Token
  | .ok t => .ok t
  | .error e =>
    match e.fault? with
    | some f => .ok (.ofFault f)
    | none => .error e

@[simp] theorem runFrom_trap (x : Eval σ Token) (s : σ) :
    x.trap.runFrom s = (trapped (x.runFrom s).1, (x.runFrom s).2) := by
  unfold runFrom trap
  simp only [ExceptT.run, ExceptT.tryCatch, ExceptT.mk, Bind.bind, StateT.bind]
  rcases x s with ⟨e | t, s'⟩
  · simp only [trapped]
    cases e.fault? <;> rfl
  · rfl

theorem trap_pure (t : Token) : (pure t : Eval σ Token).trap = pure t :=
  ext_runFrom fun s => by rw [runFrom_trap, runFrom_pure, trapped]

private theorem trap_eq (x : Eval σ Token) : x.trap = x.observe >>= fun r => ofExcept (trapped r) :=
  ext_runFrom fun s => by rw [runFrom_observe_bind, runFrom_ofExcept, runFrom_trap]

end Eval

/-! ### Questions and answers -/

/-- What a formula can ask its resolver. -/
inductive Question where
  | cell (sheet : Option String) (address : CellAddress)
  | name (id : Nat)
  | shared (anchor : CellAddress)

/-- What a question asks for. -/
def Question.Answer : Question → Type
  | cell .. => Scalar
  | name _ | shared _ => List Token

def Resolver.answer {σ : Type} (r : Resolver σ) : (q : Question) → Eval σ q.Answer
  | .cell sheet a => r.cell sheet a
  | .name id => r.name id
  | .shared anchor => r.shared anchor

/-- Each question has the same answer in all states of a set, and answering does not lead out of the set. -/
structure Resolver.Steady {σ : Type} (r : Resolver σ) (I : σ → Prop) : Prop where
  same : ∀ q {s t}, I s → I t → ((r.answer q).runFrom s).1 = ((r.answer q).runFrom t).1
  stays : ∀ q {s}, I s → I ((r.answer q).runFrom s).2

theorem Resolver.steady_blank {σ : Type} (I : σ → Prop) : (blank (σ := σ)).Steady I where
  same q s t _ _ := by cases q <;> rfl
  stays q s h := by cases q <;> exact h

/-- A finished outcome, or a question and how to go on with each answer or failure. -/
inductive Dialogue (α : Type) where
  | done (r : Except FormulaError α)
  | ask (q : Question) (next : Except FormulaError q.Answer → Dialogue α)

namespace Dialogue

variable {σ α β : Type}

/-- Let a resolver answer the questions. -/
def run (r : Resolver σ) : Dialogue α → Eval σ α
  | done x => Eval.ofExcept x
  | ask q next => do run r (next (← (r.answer q).observe))

def bind : Dialogue α → (α → Dialogue β) → Dialogue β
  | done (.ok a), f => f a
  | done (.error e), _ => done (.error e)
  | ask q next, f => ask q fun x => (next x).bind f

/-- The same questions, with the outcome as the value. -/
def observe : Dialogue α → Dialogue (Except FormulaError α)
  | done x => done (.ok x)
  | ask q next => ask q fun x => (next x).observe

private theorem run_bind (r : Resolver σ) (d : Dialogue α) (f : α → Dialogue β) :
    (d.bind f).run r = d.run r >>= fun a => (f a).run r := by
  induction d with
  | done x =>
    cases x with
    | ok a => rfl
    | error e => rfl
  | ask q next ih =>
    simp only [bind, run, bind_assoc]
    exact congrArg _ (funext ih)

private theorem run_observe (r : Resolver σ) (d : Dialogue α) : d.observe.run r = (d.run r).observe := by
  induction d with
  | done x => exact (Eval.observe_ofExcept x).symm
  | ask q next ih =>
    simp only [observe, run, Eval.observe_observe_bind]
    exact congrArg _ (funext ih)

/-- What every answer of a resolver does to its state, once or several times in turn, is all that a run does to it. -/
theorem run_invariant {r : Resolver σ} {P : σ → σ → Prop} (refl : ∀ s, P s s)
    (trans : ∀ {s t u}, P s t → P t u → P s u) (step : ∀ q s, P s ((r.answer q).runFrom s).2)
    (d : Dialogue α) (s : σ) : P s ((d.run r).runFrom s).2 := by
  induction d generalizing s with
  | done x =>
    rw [run, Eval.runFrom_ofExcept]
    exact refl s
  | ask q next ih =>
    rw [run, Eval.runFrom_observe_bind]
    exact trans (step q s) (ih _ _)

/-- Two resolvers that answer alike as long as their states are related lead to the same outcome, unless the first one
gets into a state out of which there is no way back (`E`).  The second one only has to be watched on runs whose last
state satisfies `B`. -/
theorem run_related {τ : Type} {r : Resolver σ} {m : Resolver τ} {R : σ → τ → Prop} {E : σ → Prop} {B : τ → Prop}
    (back : ∀ q t, B ((m.answer q).runFrom t).2 → B t)
    (step : ∀ q s t, R s t → B ((m.answer q).runFrom t).2 →
      (((r.answer q).runFrom s).1 = ((m.answer q).runFrom t).1 ∧
        R ((r.answer q).runFrom s).2 ((m.answer q).runFrom t).2) ∨ E ((r.answer q).runFrom s).2)
    (stay : ∀ q s, E s → E ((r.answer q).runFrom s).2) (d : Dialogue α) {s : σ} {t : τ} (h : R s t)
    (hB : B ((d.run m).runFrom t).2) :
    (((d.run r).runFrom s).1 = ((d.run m).runFrom t).1 ∧ R ((d.run r).runFrom s).2 ((d.run m).runFrom t).2) ∨
      E ((d.run r).runFrom s).2 := by
  induction d generalizing s t with
  | done x =>
    rw [run, run, Eval.runFrom_ofExcept, Eval.runFrom_ofExcept]
    exact .inl ⟨rfl, h⟩
  | ask q next ih =>
    simp only [run, Eval.runFrom_observe_bind] at hB ⊢
    -- What holds at the end of the watched run held after each of its answers.
    have hB' : B ((m.answer q).runFrom t).2 :=
      (next _).run_invariant (P := fun t u => B u → B t) (fun _ => id) (fun h h' => h ∘ h') back _ hB
    rcases step q s t h hB' with ⟨e, hR⟩ | hE
    · rw [e]
      exact ih _ hR hB
    · exact .inr ((next _).run_invariant (P := fun s u => E s → E u) (fun _ => id) (fun h h' => h' ∘ h) stay _ hE)

end Dialogue

/-! ### Computations for all resolvers -/

variable {α β : Type}

/-- One dialogue is behind the computation, whatever resolver it asks. -/
def IsDialogue (F : ∀ σ : Type, Resolver σ → Eval σ α) : Prop :=
  ∃ d : Dialogue α, ∀ σ (r : Resolver σ), F σ r = d.run r

namespace IsDialogue

variable {F : ∀ σ : Type, Resolver σ → Eval σ α}

theorem run_invariant (hF : IsDialogue F) {σ : Type} {r : Resolver σ} {P : σ → σ → Prop} (refl : ∀ s, P s s)
    (trans : ∀ {s t u}, P s t → P t u → P s u) (step : ∀ q s, P s ((r.answer q).runFrom s).2) (s : σ) :
    P s ((F σ r).runFrom s).2 := by
  obtain ⟨d, hd⟩ := hF
  rw [hd]
  exact d.run_invariant refl trans step s

theorem run_related (hF : IsDialogue F) {σ τ : Type} {r : Resolver σ} {m : Resolver τ} {R : σ → τ → Prop}
    {E : σ → Prop} {B : τ → Prop} (back : ∀ q t, B ((m.answer q).runFrom t).2 → B t)
    (step : ∀ q s t, R s t → B ((m.answer q).runFrom t).2 →
      (((r.answer q).runFrom s).1 = ((m.answer q).runFrom t).1 ∧
        R ((r.answer q).runFrom s).2 ((m.answer q).runFrom t).2) ∨ E ((r.answer q).runFrom s).2)
    (stay : ∀ q s, E s → E ((r.answer q).runFrom s).2) {s : σ} {t : τ} (h : R s t)
    (hB : B ((F τ m).runFrom t).2) :
    (((F σ r).runFrom s).1 = ((F τ m).runFrom t).1 ∧ R ((F σ r).runFrom s).2 ((F τ m).runFrom t).2) ∨
      E ((F σ r).runFrom s).2 := by
  obtain ⟨d, hd⟩ := hF
  rw [hd] at hB
  rw [hd, hd]
  exact d.run_related back step stay h hB

/-- Asking a steady resolver, the computation has the same outcome from all states of the set. -/
theorem run_steady (hF : IsDialogue F) {σ : Type} {r : Resolver σ} {I : σ → Prop} (h : r.Steady I) {s t : σ} (hs : I s)
    (ht : I t) : ((F σ r).runFrom s).1 = ((F σ r).runFrom t).1 ∧ I ((F σ r).runFrom s).2 := by
  have hrelated := hF.run_related (r := r) (m := r) (R := fun s t => I s ∧ I t) (E := fun _ => False) (B := fun _ => True)
    (fun _ _ => id) (fun q s t hst _ => .inl ⟨h.same q hst.1 hst.2, h.stays q hst.1, h.stays q hst.2⟩) (fun _ _ => id)
    ⟨hs, ht⟩ trivial
  obtain ⟨heq, hI, -⟩ := hrelated.resolve_right id
  exact ⟨heq, hI⟩

theorem run_stays (hF : IsDialogue F) {σ : Type} {r : Resolver σ} {I : σ → Prop} (h : r.Steady I) {s t : σ}
    {x : Except FormulaError α} (hs : I s) (hrun : (F σ r).runFrom s = (x, t)) : I t := by
  have hstay := (hF.run_steady h hs hs).2
  rwa [hrun] at hstay

theorem ofExcept (x : Except FormulaError α) : IsDialogue fun σ _ => (Eval.ofExcept x : Eval σ α) :=
  ⟨.done x, fun _ _ => rfl⟩

theorem pure (a : α) : IsDialogue fun σ _ => (Pure.pure a : Eval σ α) :=
  ⟨.done (.ok a), fun _ _ => rfl⟩

theorem throw (e : FormulaError) : IsDialogue fun σ _ => (MonadExcept.throw e : Eval σ α) :=
  ⟨.done (.error e), fun _ _ => rfl⟩

theorem bind {G : α → ∀ σ : Type, Resolver σ → Eval σ β} (hF : IsDialogue F) (hG : ∀ a, IsDialogue (G a)) :
    IsDialogue fun σ r => F σ r >>= fun a => G a σ r := by
  obtain ⟨d, hd⟩ := hF
  choose e he using hG
  refine ⟨d.bind e, fun σ r => ?_⟩
  simp only [Dialogue.run_bind, hd, he]

theorem observe (hF : IsDialogue F) : IsDialogue fun σ r => (F σ r).observe := by
  obtain ⟨d, hd⟩ := hF
  exact ⟨d.observe, fun σ r => by simp only [Dialogue.run_observe, hd]⟩

theorem map (f : α → β) (hF : IsDialogue F) : IsDialogue fun σ r => f <$> F σ r := by
  simp only [← bind_pure_comp]
  exact hF.bind fun a => .pure (f a)

theorem trap {F : ∀ σ : Type, Resolver σ → Eval σ Token} (hF : IsDialogue F) : IsDialogue fun σ r => (F σ r).trap := by
  simp only [Eval.trap_eq]
  exact hF.observe.bind fun x => .ofExcept (Eval.trapped x)

theorem ask (q : Question) : IsDialogue fun _ r => r.answer q :=
  ⟨.ask q .done, fun _ _ => (Eval.observe_bind_ofExcept _).symm⟩

theorem cell (sheet : Option String) (a : CellAddress) : IsDialogue fun _ r => r.cell sheet a :=
  ask (.cell sheet a)

theorem name (id : Nat) : IsDialogue fun _ r => r.name id :=
  ask (.name id)

theorem shared (anchor : CellAddress) : IsDialogue fun _ r => r.shared anchor :=
  ask (.shared anchor)

theorem mapM {G : β → ∀ σ : Type, Resolver σ → Eval σ α} (xs : List β) (hG : ∀ b, IsDialogue (G b)) :
    IsDialogue fun σ r => xs.mapM fun b => G b σ r := by
  induction xs with
  | nil => exact .pure []
  | cons b xs ih =>
    simp only [List.mapM_cons]
    exact (hG b).bind fun a => ih.bind fun as => .pure (a :: as)

theorem foldlM {G : α → β → ∀ σ : Type, Resolver σ → Eval σ α} (xs : List β) (hG : ∀ a b, IsDialogue (G a b)) (a : α) :
    IsDialogue fun σ r => xs.foldlM (fun a b => G a b σ r) a := by
  induction xs generalizing a with
  | nil => exact .pure a
  | cons b xs ih =>
    simp only [List.foldlM_cons]
    exact (hG a b).bind ih

end IsDialogue

end Spreadsheet
