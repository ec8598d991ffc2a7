import Mathlib.Data.List.Basic

namespace Vppsb.StepRun

variable {S E : Type}

/-- Fold a partial step function over a list of events. The run is undefined
as soon as one step is. -/
def run (step : S → E → Option S) : S → List E → Option S
  | s, [] => some s
  | s, e :: es => (step s e).bind (fun t => run step t es)

/-- Every step of the run that is actually taken meets the condition. -/
def Meets (step : S → E → Option S) (cond : S → E → Prop) : S → List E → Prop
  | _, [] => True
  | s, e :: es => cond s e ∧ ∀ t, step s e = some t → Meets step cond t es

variable {step : S → E → Option S} {cond : S → E → Prop} {P : S → Prop}

@[simp] theorem run_nil (s : S) : run step s [] = some s := rfl

theorem run_cons (s : S) (e : E) (es : List E) :
    run step s (e :: es) = (step s e).bind (fun t => run step t es) := rfl

theorem run_cons_eq_some {s u : S} {e : E} {es : List E} :
    run step s (e :: es) = some u ↔ ∃ t, step s e = some t ∧ run step t es = some u := by
  rw [run_cons, Option.bind_eq_some_iff]

theorem run_append (s : S) (es fs : List E) :
    run step s (es ++ fs) = (run step s es).bind (fun t => run step t fs) := by
  induction es generalizing s with
  | nil => rfl
  | cons e es ih =>
    rw [List.cons_append, run_cons, run_cons]
    cases h : step s e with
    | none => rfl
    | some t => exact ih t

theorem run_append_eq_some {s u : S} {es fs : List E} :
    run step s (es ++ fs) = some u ↔ ∃ t, run step s es = some t ∧ run step t fs = some u := by
  rw [run_append, Option.bind_eq_some_iff]

/-- An invariant that every step meeting the condition preserves holds at the
end of every run whose steps all meet it. -/
theorem invariant_of_meets
    (preserves : ∀ s e t, P s → cond s e → step s e = some t → P t)
    {s u : S} {es : List E} (hs : P s) (hc : Meets step cond s es)
    (hr : run step s es = some u) : P u := by
  induction es generalizing s with
  | nil =>
    cases hr
    exact hs
  | cons e es ih =>
    obtain ⟨t, ht, hu⟩ := run_cons_eq_some.mp hr
    exact ih (preserves s e t hs hc.1 ht) (hc.2 t ht) hu

theorem meets_of_forall {Q : E → Prop} {s : S} {es : List E} (h : ∀ e ∈ es, Q e) :
    Meets step (fun _ e => Q e) s es := by
  induction es generalizing s with
  | nil => exact trivial
  | cons e es ih =>
    exact ⟨h e List.mem_cons_self, fun _ _ => ih fun e' he => h e' (List.mem_cons_of_mem e he)⟩

theorem invariant (preserves : ∀ s e t, P s → step s e = some t → P t)
    {s u : S} {es : List E} (hs : P s) (hr : run step s es = some u) : P u := by
  induction es generalizing s with
  | nil =>
    cases hr
    exact hs
  | cons e es ih =>
    obtain ⟨t, ht, hu⟩ := run_cons_eq_some.mp hr
    exact ih (preserves s e t hs ht) hu

/-- Where every step that meets the condition can be taken and keeps the invariant, so can
the run. -/
theorem progress_of_meets
    (steps : ∀ s e, P s → cond s e → ∃ t, step s e = some t ∧ P t)
    {s : S} {es : List E} (hs : P s) (hc : Meets step cond s es) :
    ∃ t, run step s es = some t ∧ P t := by
  induction es generalizing s with
  | nil => exact ⟨s, rfl, hs⟩
  | cons e es ih =>
    obtain ⟨t, ht, hst⟩ := steps s e hs hc.1
    obtain ⟨u, hu, hsu⟩ := ih hst (hc.2 t ht)
    exact ⟨u, run_cons_eq_some.mpr ⟨t, ht, hu⟩, hsu⟩

theorem run_map {T : Type} {step' : T → E → Option T} {f : S → T}
    (follows : ∀ s e, (step s e).map f = step' (f s) e) (s : S) (es : List E) :
    (run step s es).map f = run step' (f s) es := by
  induction es generalizing s with
  | nil => rfl
  | cons e es ih =>
    rw [run_cons, run_cons, ← follows]
    cases step s e with
    | none => rfl
    | some t => exact ih t

/-- Runs that come to their end are followed by the view that follows their steps. -/
theorem run_simulates {T : Type} {step' : T → E → Option T} {f : S → T}
    (simulates : ∀ s e t, step s e = some t → step' (f s) e = some (f t)) {s t : S} {es : List E}
    (hr : run step s es = some t) : run step' (f s) es = some (f t) := by
  induction es generalizing s with
  | nil =>
    obtain rfl := Option.some.inj hr
    rfl
  | cons e es ih =>
    obtain ⟨u, hu, hr⟩ := run_cons_eq_some.mp hr
    exact run_cons_eq_some.mpr ⟨f u, simulates s e u hu, ih hr⟩

theorem meets_append {s : S} {es fs : List E} :
    Meets step cond s (es ++ fs) ↔
      Meets step cond s es ∧ ∀ t, run step s es = some t → Meets step cond t fs := by
  induction es generalizing s with
  | nil => simp [Meets]
  | cons e es ih =>
    simp only [List.cons_append, Meets, ih, run_cons_eq_some]
    constructor
    · rintro ⟨hc, h⟩
      exact ⟨⟨hc, fun t ht => (h t ht).1⟩, fun u ⟨t, ht, hu⟩ => (h t ht).2 u hu⟩
    · rintro ⟨⟨hc, h⟩, h'⟩
      exact ⟨hc, fun t ht => ⟨h t ht, fun u hu => h' u ⟨t, ht, hu⟩⟩⟩

theorem meets_of_run {s u : S} {es : List E} (hr : run step s es = some u) :
    Meets step (fun s e => ∃ t, step s e = some t) s es := by
  induction es generalizing s with
  | nil => exact trivial
  | cons e es ih =>
    obtain ⟨t, ht, hu⟩ := run_cons_eq_some.mp hr
    refine ⟨⟨t, ht⟩, fun t' ht' => ?_⟩
    obtain rfl := Option.some.inj (ht.symm.trans ht')
    exact ih hu

theorem meets_mono {guard c d : S → E → Prop}
    (preserves : ∀ s e t, P s → guard s e → step s e = some t → P t)
    (imp : ∀ s e, P s → guard s e → c s e → d s e) {s : S} {es : List E} (hs : P s)
    (hg : Meets step guard s es) (hc : Meets step c s es) : Meets step d s es := by
  induction es generalizing s with
  | nil => exact trivial
  | cons e es ih =>
    obtain ⟨he, hrest⟩ := hg
    refine ⟨imp s e hs he hc.1, fun t ht => ?_⟩
    exact ih (preserves s e t hs he ht) (hrest t ht) (hc.2 t ht)

/-- Two conditions that agree wherever an invariant holds agree along a run, if
they keep the invariant. -/
theorem meets_congr {guard c d : S → E → Prop}
    (preserves : ∀ s e t, P s → guard s e → d s e → step s e = some t → P t)
    (agree : ∀ s e, P s → guard s e → (c s e ↔ d s e)) {s : S} {es : List E} (hs : P s)
    (hg : Meets step guard s es) : Meets step c s es ↔ Meets step d s es := by
  induction es generalizing s with
  | nil => exact Iff.rfl
  | cons e es ih =>
    have he := agree s e hs hg.1
    constructor
    · rintro ⟨hc, h⟩
      refine ⟨he.mp hc, fun t ht => ?_⟩
      exact (ih (preserves s e t hs hg.1 (he.mp hc) ht) (hg.2 t ht)).mp (h t ht)
    · rintro ⟨hd, h⟩
      refine ⟨he.mpr hd, fun t ht => ?_⟩
      exact (ih (preserves s e t hs hg.1 hd ht) (hg.2 t ht)).mpr (h t ht)

end Vppsb.StepRun
