import Vppsb.RingFamily
import Vppsb.StepRun

namespace Vppsb.RingCalls

open Vppsb.StepRun Vppsb.LinkedRing Vppsb.RingFamily

variable {ι ν κ : Type} [DecidableEq ι]

inductive Call (κ ι : Type) where
  | addtail (k : κ) (x : ι)
  | remove (x : ι)

/-- A call on the memory. Undefined where there is no ring for the key. -/
def call (head : κ → Option ι) (m : Mem ι ν) : Call κ ι → Option (Mem ι ν)
  | .addtail k x => (head k).bind (fun h => addtail m h x)
  | .remove x => LinkedRing.remove m x

def listCall [DecidableEq κ] (nodes : κ → List ι) : Call κ ι → κ → List ι
  | .addtail k x => Function.update nodes k (nodes k ++ [x])
  | .remove x => fun k => (nodes k).erase x

/-- An element is added that is in no ring and has a value, or one is removed
that is in a ring. -/
def Proper (head : κ → Option ι) (value : ι → Option ν) (nodes : κ → List ι) : Call κ ι → Prop
  | .addtail k x => head k ≠ none ∧ Unused head nodes x ∧ value x ≠ none
  | .remove x => ∃ k, x ∈ nodes k

variable {m : Mem ι ν} {head : κ → Option ι} {nodes : κ → List ι} [DecidableEq κ]

theorem update_erase (hr : Rings m head nodes) {k : κ} {x : ι} (hx : x ∈ nodes k) :
    Function.update nodes k ((nodes k).erase x) = fun k' => (nodes k').erase x := by
  funext k'
  by_cases hk : k' = k
  · rw [hk, Function.update_self]
  · have hno : x ∉ nodes k' := fun h => hk (hr.disjoint k' k x h hx)
    rw [Function.update_of_ne hk, List.erase_of_not_mem hno]

theorem call_rings (hr : Rings m head nodes) {c : Call κ ι}
    (hp : Proper head (fun x => (m x).value) nodes c) :
    ∃ m', call head m c = some m' ∧ Rings m' head (listCall nodes c) ∧
      ∀ x, (m' x).value = (m x).value := by
  cases c with
  | addtail k x =>
    obtain ⟨hk, hx, hv⟩ := hp
    obtain ⟨h, hh⟩ := Option.ne_none_iff_exists'.mp hk
    obtain ⟨m', hm', hr', hval⟩ := hr.addtail hh hx hv
    refine ⟨m', ?_, hr', hval⟩
    rw [call, hh]
    exact hm'
  | remove x =>
    obtain ⟨k, hx⟩ := hp
    obtain ⟨m', hm', hr', hval⟩ := hr.remove hx
    rw [update_erase hr hx] at hr'
    exact ⟨m', hm', hr', hval⟩

/-- A run on the memory follows the run on the lists. -/
theorem run_rings (hr : Rings m head nodes) {calls : List (Call κ ι)}
    (hp : Meets (fun nodes c => some (listCall nodes c)) (Proper head fun x => (m x).value) nodes
      calls) :
    ∃ m', run (call head) m calls = some m' ∧ Rings m' head (calls.foldl listCall nodes) := by
  induction calls generalizing m nodes with
  | nil => exact ⟨m, rfl, hr⟩
  | cons c calls ih =>
    obtain ⟨m₁, hm₁, hr₁, hval⟩ := call_rings hr hp.1
    have hrest := hp.2 _ rfl
    simp only [← hval] at hrest
    obtain ⟨m', hm', hr'⟩ := ih hr₁ hrest
    refine ⟨m', ?_, hr'⟩
    rw [run_cons, hm₁]
    exact hm'

end Vppsb.RingCalls
