import Vppsb.FlowWheel
import Vppsb.RingCalls

namespace Vppsb.FlowSplice

open Vppsb.StepRun Vppsb.LinkedRing Vppsb.RingFamily Vppsb.RingCalls Vppsb.PoolStore
  Vppsb.FlowSignature Vppsb.FlowTable Vppsb.FlowInvariant Vppsb.FlowCreate Vppsb.FlowExpire
  Vppsb.FlowWheel

def slotHeads (fm : FlowtableMain) (i : Nat) : Option Nat := fm.timerWheel[i]?

def spliced (slots : Nat → List Nat) (i j : Nat) : Nat → List Nat :=
  Function.update (Function.update slots i []) j (slots i ++ slots j)

/-- Proper calls on the slot lists are carried out, and keep all of them. -/
def KeepsCalls (fm : FlowtableMain) (tm : Mem Nat Nat) (slots : Nat → List Nat) : Prop :=
  ∀ calls : List (Call Nat Nat),
    Meets (fun slots c => some (listCall slots c)) (Proper (slotHeads fm) fun x => (tm x).value)
      slots calls →
    ∃ tm', run (call (slotHeads fm)) tm calls = some tm' ∧
      Rings tm' (slotHeads fm) (calls.foldl listCall slots)

section Update

variable {fm : FlowtableMain} {c d : Nat} {xs ys : List Nat} {now : Nat}

/-- The two slot lists are all that a change of the index touches. -/
theorem indexUpdate_pair (hsize : fm.timerWheel.length = timerMaxLifetime)
    (hcur : slotHeads fm fm.timeIndex = some c)
    (hnew : slotHeads fm (now % timerMaxLifetime) = some d)
    (hne : now % timerMaxLifetime ≠ fm.timeIndex) (hc : Ring fm.timers.elt c xs)
    (hd : Ring fm.timers.elt d ys) (hdis : (c :: xs).Disjoint (d :: ys)) :
    ∃ tm, timerWheelIndexUpdate fm now =
        some { fm with timers := withElt fm.timers tm, timeIndex := now % timerMaxLifetime } ∧
      Ring tm c [] ∧ Ring tm d (xs ++ ys) ∧
      (∀ w, w ∉ c :: xs → w ∉ d :: ys → tm w = fm.timers.elt w) ∧
      ∀ w, (tm w).value = (fm.timers.elt w).value := by
  have hlt : fm.timeIndex < timerMaxLifetime := by
    rw [← hsize]
    exact (List.getElem?_eq_some_iff.mp hcur).1
  have hno : fm.timeIndex ≠ noIndex := by
    rw [timerMaxLifetime] at hlt
    rw [noIndex]
    omega
  rw [slotHeads] at hcur hnew
  by_cases hempty : dlistIsEmpty fm.timers.elt c = true
  · obtain rfl := (dlistIsEmpty_iff hc).mp hempty
    refine ⟨fm.timers.elt, ?_, hc, hd, fun _ _ _ => rfl, fun _ => rfl⟩
    simp only [timerWheelIndexUpdate, hno, hne, if_false, hcur, hnew, hempty, if_true,
      Option.bind_eq_bind, Option.bind_some]
    rfl
  · have hxs := mt (dlistIsEmpty_iff hc).mpr hempty
    have hn : (c :: xs ++ d :: ys).Nodup := hc.nodup.append hd.nodup hdis
    obtain ⟨tm, htm, hc', hd', hf, hv⟩ := spliceSlots_pair hc hd hn hxs
    refine ⟨tm, ?_, hc', hd', hf, hv⟩
    simp only [timerWheelIndexUpdate, hno, hne, if_false, hcur, hnew, hempty,
      Option.bind_eq_bind, Option.bind_some, htm]
    rfl

/-- The list of the new slot gets the elements of the old one in front of its
own, whatever the other slots hold; where they hold lists, too, all of them stay
well formed, also under the calls that follow. -/
theorem index_update_splices (hsize : fm.timerWheel.length = timerMaxLifetime)
    (hcur : slotHeads fm fm.timeIndex = some c)
    (hnew : slotHeads fm (now % timerMaxLifetime) = some d)
    (hne : now % timerMaxLifetime ≠ fm.timeIndex) (hc : Ring fm.timers.elt c xs)
    (hd : Ring fm.timers.elt d ys) (hdis : (c :: xs).Disjoint (d :: ys)) :
    ∃ tm, timerWheelIndexUpdate fm now =
        some { fm with timers := withElt fm.timers tm, timeIndex := now % timerMaxLifetime } ∧
      Ring tm c [] ∧ Ring tm d (xs ++ ys) ∧
      (∀ w, w ∉ c :: xs → w ∉ d :: ys → tm w = fm.timers.elt w) ∧
      ∀ slots, Rings fm.timers.elt (slotHeads fm) slots →
        Rings tm (slotHeads fm) (spliced slots fm.timeIndex (now % timerMaxLifetime)) ∧
          KeepsCalls fm tm (spliced slots fm.timeIndex (now % timerMaxLifetime)) := by
  obtain ⟨tm, hrun, hc', hd', hf, _⟩ := indexUpdate_pair hsize hcur hnew hne hc hd hdis
  refine ⟨tm, hrun, hc', hd', hf, fun slots hr => ?_⟩
  have hxs : slots fm.timeIndex = xs := (hr.ring _ c hcur).unique hc
  have hys : slots (now % timerMaxLifetime) = ys := (hr.ring _ d hnew).unique hd
  rw [← hxs, ← hys] at hd' hf
  have hr' : Rings tm (slotHeads fm) (spliced slots fm.timeIndex (now % timerMaxLifetime)) :=
    hr.merge hcur hnew (Ne.symm hne) hc' hd' hf
  exact ⟨hr', fun calls hp => run_rings hr' hp⟩

end Update

section Callers

variable {fm : FlowtableMain} (hwheel : fm.timerWheel = List.range timerMaxLifetime) (f : Nat)

include hwheel

theorem slotHeads_eq : slotHeads fm = slotHead := by
  funext i
  rw [slotHeads, hwheel, slotHead]
  split
  · next h => rw [List.getElem?_range h]
  · next h => rw [List.getElem?_eq_none (by rw [List.length_range]; exact Nat.not_lt.mp h)]

theorem timerWheelInsertFlow_call : timerWheelInsertFlow fm f =
    (call (slotHeads fm) fm.timers.elt
      (.addtail (slotOf fm (fm.flows.elt f).lifetime) (fm.flows.elt f).timerIndex)).map
        (fun tm => { fm with timers := withElt fm.timers tm }) := by
  rw [call, slotHeads_eq hwheel, slotHead_slotOf, Option.bind_some, timerWheelInsertFlow, slotOf]
  cases addtail fm.timers.elt _ _ <;> rfl

theorem timerWheelReschedFlow_calls (now : Nat) : timerWheelReschedFlow fm f now =
    (run (call (slotHeads fm)) fm.timers.elt
      [.remove (fm.flows.elt f).timerIndex,
        .addtail (slotOf fm (fm.flows.elt f).lifetime) (fm.flows.elt f).timerIndex]).map
      (fun tm => setFlow { fm with timers := withElt fm.timers tm } f
        { fm.flows.elt f with expire := u32 (now + (fm.flows.elt f).lifetime) }) := by
  rw [timerWheelReschedFlow, run_cons, call]
  cases hm : LinkedRing.remove fm.timers.elt (fm.flows.elt f).timerIndex with
  | none => rfl
  | some tm =>
    have hslot := slotHead_slotOf fm (fm.flows.elt f).lifetime
    rw [slotOf] at hslot
    simp only [timerWheelInsertFlow, setFlow, elt_set, Function.update_self, elt_withElt, run_cons,
      run_nil, call, slotHeads_eq hwheel, slotOf, hslot, Option.bind_eq_bind, Option.bind_some]
    cases addtail tm _ _ <;> rfl

end Callers

def threeTimers : Mem Nat Nat
  | 3 => ⟨some 300, some 301, none⟩
  | 300 => ⟨some 301, some 3, some 0⟩
  | 301 => ⟨some 3, some 300, some 1⟩
  | 5 => ⟨some 302, some 302, none⟩
  | 302 => ⟨some 5, some 5, some 2⟩
  | _ => ⟨none, none, none⟩

def wheelAtThree : FlowtableMain where
  flows := empty zeroFlow
  flowsHt := fun _ => none
  htLines := empty ⟨none, none, none⟩
  flowsCpt := 0
  timers := ⟨threeTimers, 303, []⟩
  timerWheel := List.range timerMaxLifetime
  timeIndex := 3
  nextNodeIndex := 0

theorem index_update_splices_sample : ∃ tm, timerWheelIndexUpdate wheelAtThree 605 =
    some { wheelAtThree with timers := withElt wheelAtThree.timers tm, timeIndex := 5 } ∧
    Ring tm 3 [] ∧ Ring tm 5 [300, 301, 302] := by
  have hthree : Ring threeTimers 3 [300, 301] :=
    ⟨Or.inl ⟨⟨rfl, rfl⟩, ⟨rfl, rfl⟩, rfl, rfl⟩, by decide, rfl, by decide⟩
  have hfive : Ring threeTimers 5 [302] := ⟨Or.inl ⟨⟨rfl, rfl⟩, rfl, rfl⟩, by decide, rfl, by decide⟩
  have hsize : wheelAtThree.timerWheel.length = timerMaxLifetime := by
    rw [wheelAtThree, List.length_range]
  have hheads : ∀ i < timerMaxLifetime, slotHeads wheelAtThree i = some i := by
    intro i hi
    rw [slotHeads, wheelAtThree, List.getElem?_range hi]
  have hnew : slotHeads wheelAtThree (605 % timerMaxLifetime) = some 5 := hheads 5 (by decide)
  have hne : 605 % timerMaxLifetime ≠ wheelAtThree.timeIndex := by decide
  have hcur : slotHeads wheelAtThree wheelAtThree.timeIndex = some 3 := hheads 3 (by decide)
  obtain ⟨tm, hrun, hc, hd, _⟩ := index_update_splices hsize hcur hnew hne hthree hfive
    (List.disjoint_iff_ne.mpr (by decide))
  exact ⟨tm, hrun, hc, hd⟩

end Vppsb.FlowSplice
