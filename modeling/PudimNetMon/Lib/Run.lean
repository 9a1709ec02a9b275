/-!
# Runs of a transition system

A system is a step function that refuses an event which is not enabled; a run is a list of events and ends at the
first refused one. `Always` is a property of every state of a run and `Guarded` a condition on every step of it.

- `always_of_inv`, `always_of_guarded`: invariants of all runs, and of the runs whose steps meet a condition;
- `always_iff_guarded`: when a step keeps a property exactly under a condition, so does a run.
-/

namespace PudimNetMon

variable {σ ε : Type} (step : σ → ε → Option σ)

/-- The state after all events, when each of them is enabled. -/
def runEvents : σ → List ε → Option σ
  | s, [] => some s
  | s, e :: es => (step s e).bind fun s' => runEvents s' es

/-- The property holds in every state of the run. -/
def Always (P : σ → Prop) : σ → List ε → Prop
  | s, [] => P s
  | s, e :: es => P s ∧ ∀ s', step s e = some s' → Always P s' es

/-- Every step of the run meets the condition. -/
def Guarded (G : σ → ε → Prop) : σ → List ε → Prop
  | _, [] => True
  | s, e :: es => ∀ s', step s e = some s' → G s e ∧ Guarded G s' es

variable {step} {P Inv : σ → Prop} {G : σ → ε → Prop}

theorem Always.head {es : List ε} {s : σ} (h : Always step P s es) : P s := by
  cases es with
  | nil => exact h
  | cons e es => exact h.1

theorem runEvents_append {es : List ε} {s t : σ} (hr : runEvents step s es = some t) (es' : List ε) :
    runEvents step s (es ++ es') = runEvents step t es' := by
  induction es generalizing s with
  | nil =>
    cases hr
    rfl
  | cons e es ih =>
    obtain ⟨u, hu, hr⟩ := Option.bind_eq_some_iff.1 hr
    rw [List.cons_append, runEvents, hu]
    exact ih hr

theorem runEvents_concat {es : List ε} {s t : σ} (hr : runEvents step s es = some t) (e : ε) :
    runEvents step s (es ++ [e]) = step t e := by
  rw [runEvents_append hr]
  exact Option.bind_fun_some _

/-- The property holds in the last state. -/
theorem Always.last {es : List ε} {s s' : σ} (h : Always step P s es) (hr : runEvents step s es = some s') : P s' := by
  induction es generalizing s with
  | nil =>
    cases hr
    exact h
  | cons e es ih =>
    obtain ⟨t, ht, hr⟩ := Option.bind_eq_some_iff.1 hr
    exact ih (h.2 t ht) hr

theorem Guarded.cons {s t : σ} {e : ε} {es : List ε} (hs : step s e = some t) (hg : G s e)
    (h : Guarded step G t es) : Guarded step G s (e :: es) := by
  intro s' hs'
  cases hs.symm.trans hs'
  exact ⟨hg, h⟩

theorem guarded_cons_iff {s t : σ} {e : ε} {es : List ε} (hs : step s e = some t) :
    Guarded step G s (e :: es) ↔ G s e ∧ Guarded step G t es :=
  ⟨fun h => h t hs, fun h => .cons hs h.1 h.2⟩

/-- Whether a property holds throughout a run is found by running it. -/
def decideAlways [∀ s, Decidable (P s)] : ∀ (s : σ) (es : List ε), Decidable (Always step P s es)
  | s, [] => inferInstanceAs (Decidable (P s))
  | s, e :: es =>
    match hs : step s e with
    | none => decidable_of_iff (P s) ⟨fun h => ⟨h, fun s' hs' => by rw [hs] at hs'; cases hs'⟩, And.left⟩
    | some t =>
      have := decideAlways t es
      decidable_of_iff (P s ∧ Always step P t es)
        ⟨fun h => ⟨h.1, fun s' hs' => by cases hs.symm.trans hs'; exact h.2⟩, fun h => ⟨h.1, h.2 t hs⟩⟩

instance [∀ s, Decidable (P s)] (s : σ) (es : List ε) : Decidable (Always step P s es) := decideAlways s es

/-- The last step of a run meets the condition. -/
theorem Guarded.last {es : List ε} {s t t' : σ} {e : ε} (h : Guarded step G s (es ++ [e]))
    (hr : runEvents step s es = some t) (hs : step t e = some t') : G t e := by
  induction es generalizing s with
  | nil =>
    cases hr
    exact (h t' hs).1
  | cons e' es ih =>
    obtain ⟨u, hu, hr⟩ := Option.bind_eq_some_iff.1 hr
    exact ih (h u hu).2 hr

/-- Whether a run meets a condition is found by running it. -/
def decideGuarded [∀ s e, Decidable (G s e)] : ∀ (s : σ) (es : List ε), Decidable (Guarded step G s es)
  | _, [] => .isTrue trivial
  | s, e :: es =>
    match hs : step s e with
    | none => .isTrue fun s' hs' => by rw [hs] at hs'; cases hs'
    | some t =>
      have := decideGuarded t es
      decidable_of_iff _ (guarded_cons_iff hs).symm

instance [∀ s e, Decidable (G s e)] (s : σ) (es : List ε) : Decidable (Guarded step G s es) := decideGuarded s es

/-- A condition on the events alone. -/
theorem guarded_of_forall {C : ε → Prop} {es : List ε} {s : σ} (h : ∀ e ∈ es, C e) :
    Guarded step (fun _ e => C e) s es := by
  induction es generalizing s with
  | nil => trivial
  | cons e es ih =>
    intro s' _
    exact ⟨h e List.mem_cons_self, ih fun e' he' => h e' (List.mem_cons_of_mem _ he')⟩

/-- A condition on the events alone, when no event is refused. -/
theorem guarded_iff_forall (htotal : ∀ s e, ∃ s', step s e = some s') {C : ε → Prop} {es : List ε} {s : σ} :
    Guarded step (fun _ e => C e) s es ↔ ∀ e ∈ es, C e := by
  refine ⟨fun h => ?_, guarded_of_forall⟩
  induction es generalizing s with
  | nil => exact nofun
  | cons e es ih =>
    obtain ⟨s', hs⟩ := htotal s e
    exact List.forall_mem_cons.2 ⟨(h s' hs).1, ih (h s' hs).2⟩

theorem Guarded.and {G' : σ → ε → Prop} {es : List ε} {s : σ} (h : Guarded step G s es) (h' : Guarded step G' s es) :
    Guarded step (fun s e => G s e ∧ G' s e) s es := by
  induction es generalizing s with
  | nil => trivial
  | cons e es ih =>
    intro s' hs
    exact ⟨⟨(h s' hs).1, (h' s' hs).1⟩, ih (h s' hs).2 (h' s' hs).2⟩

/-- A property of every state is a condition on every step. -/
theorem Always.guarded {es : List ε} {s : σ} (h : Always step P s es) : Guarded step (fun s _ => P s) s es := by
  induction es generalizing s with
  | nil => trivial
  | cons e es ih => exact fun s' hs => ⟨h.1, ih (h.2 s' hs)⟩

/-- An invariant that the guarded steps keep. -/
theorem always_of_guarded (hstep : ∀ s e s', Inv s → G s e → step s e = some s' → Inv s')
    (hP : ∀ s, Inv s → P s) {es : List ε} {s : σ} (hi : Inv s) (hg : Guarded step G s es) : Always step P s es := by
  induction es generalizing s with
  | nil => exact hP s hi
  | cons e es ih =>
    refine ⟨hP s hi, fun s' hs => ?_⟩
    obtain ⟨hge, hrest⟩ := hg s' hs
    exact ih (hstep s e s' hi hge hs) hrest

/-- What the guarded steps from an invariant do. -/
theorem guarded_of_guarded {G' : σ → ε → Prop} (hstep : ∀ s e s', Inv s → G s e → step s e = some s' → Inv s')
    (hG : ∀ s e s', Inv s → G s e → step s e = some s' → G' s e) {es : List ε} {s : σ} (hi : Inv s)
    (hg : Guarded step G s es) : Guarded step G' s es := by
  induction es generalizing s with
  | nil => trivial
  | cons e es ih =>
    intro s' hs
    obtain ⟨hge, hrest⟩ := hg s' hs
    exact ⟨hG s e s' hi hge hs, ih (hstep s e s' hi hge hs) hrest⟩

/-- An invariant that every step keeps. -/
theorem always_of_inv (hstep : ∀ s e s', Inv s → step s e = some s' → Inv s') (hP : ∀ s, Inv s → P s)
    {es : List ε} {s : σ} (hi : Inv s) : Always step P s es := by
  induction es generalizing s with
  | nil => exact hP s hi
  | cons e es ih => exact ⟨hP s hi, fun s' hs => ih (hstep s e s' hi hs)⟩

/-- A condition that every step from an invariant meets. -/
theorem guarded_of_inv (hstep : ∀ s e s', Inv s → step s e = some s' → Inv s') (hG : ∀ s e, Inv s → G s e)
    {es : List ε} {s : σ} (hi : Inv s) : Guarded step G s es := by
  induction es generalizing s with
  | nil => trivial
  | cons e es ih => exact fun s' hs => ⟨hG s e hi, ih (hstep s e s' hi hs)⟩

/-- A property that a step keeps exactly under a condition, along with an invariant of all steps. -/
theorem always_iff_guarded (hstep : ∀ s e s', Inv s → step s e = some s' → Inv s')
    (hP : ∀ s e s', Inv s → P s → step s e = some s' → (P s' ↔ G s e)) {es : List ε} {s : σ} (hi : Inv s) (hs : P s) :
    Always step P s es ↔ Guarded step G s es := by
  induction es generalizing s with
  | nil => exact iff_of_true hs trivial
  | cons e es ih =>
    constructor
    · intro h s' he
      have hs' := (h.2 s' he).head
      exact ⟨(hP s e s' hi hs he).1 hs', (ih (hstep s e s' hi he) hs').1 (h.2 s' he)⟩
    · intro h
      refine ⟨hs, fun s' he => ?_⟩
      obtain ⟨hg, hrest⟩ := h s' he
      have hs' := (hP s e s' hi hs he).2 hg
      exact (ih (hstep s e s' hi he) hs').2 hrest

end PudimNetMon
