import Vppsb.FlowUpdate

namespace Vppsb.FlowUpdateEffect

open Vppsb.StepRun Vppsb.PoolStore Vppsb.FlowSignature Vppsb.FlowTable Vppsb.FlowProcess
  Vppsb.FlowInvariant Vppsb.FlowLookup Vppsb.FlowRun Vppsb.FlowIdentity Vppsb.FlowUpdate

def sigLenOf (a : UpdateArgs) : Nat := if a.isIp4 then sizeofIp4Sig else sizeofIp6Sig

/-- A live flow that is stored under the signature that the arguments form. -/
structure ExactFlow (fm : FlowtableMain) (a : UpdateArgs) (f : Nat) : Prop where
  live : Live fm.flows f
  sigLen : (fm.flows.elt f).sigLen = sigLenOf a
  sig : sameBytes (fm.flows.elt f).sig (sigBytes (updateSignature a)) (sigLenOf a) = true

def written (fm : FlowtableMain) (a : UpdateArgs) (f : Nat) : FlowtableMain :=
  let e := fm.flows.elt f
  let infos := { e.infos with offloaded := a.offloaded, info := a.infos }
  let lifetime := if a.lifetime = 0xffff then e.lifetime else a.lifetime.toNat
  { fm with flows := set fm.flows f { e with lifetime := lifetime, infos := infos } }

/-- The call writes to a flow stored under the signature, or, where there is
none, fails and changes nothing. -/
def UpdatesExactFlow (fm : FlowtableMain) (a : UpdateArgs) : Prop :=
  (∀ f, ¬ ExactFlow fm a f) ∧ flowtableUpdate fm a = some (fm, -1) ∨
    ∃ f, ExactFlow fm a f ∧ flowtableUpdate fm a = some (written fm a f, 0)

def HasData (fm : FlowtableMain) (a : UpdateArgs) (f : Nat) : Prop :=
  applyUpdate (fm.flows.elt f) a = fm.flows.elt f

/-- No flow stands under the hash of the arguments and none has their
signature; or the search in the hash line ends at a flow that has it; or the
call has nothing to change, neither there nor at a flow that has it. -/
def EndsWell (fm : FlowtableMain) (a : UpdateArgs) : Prop :=
  (∀ f, Live fm.flows f → (fm.flows.elt f).sigHash ≠ hashSignature (updateSignature a) ∧
    ¬ ExactFlow fm a f) ∨
  ∃ f, EndsAt fm a (hashSignature (updateSignature a)) f ∧
    (ExactFlow fm a f ∨ HasData fm a f ∧ ∃ g, ExactFlow fm a g ∧ HasData fm a g)

section Effect

variable {fm : FlowtableMain} {lines : BitVec 64 → List Nat} {slots : Nat → List Nat}

theorem written_eq (fm : FlowtableMain) (a : UpdateArgs) (f : Nat) :
    written fm a f = FlowTable.setFlow fm f (applyUpdate (fm.flows.elt f) a) := by
  rw [written, FlowTable.setFlow, applyUpdate, ite_not]

theorem elt_written (fm : FlowtableMain) (a : UpdateArgs) (f g : Nat) :
    (written fm a f).flows.elt g =
      if g = f then applyUpdate (fm.flows.elt f) a else fm.flows.elt g := by
  rw [written_eq, FlowTable.setFlow, elt_set, Function.update_apply]

/-- Writes to two flows have the same effect only if neither has any. -/
theorem written_inj {a : UpdateArgs} {f g : Nat} :
    written fm a f = written fm a g ↔ f = g ∨ HasData fm a f ∧ HasData fm a g := by
  constructor
  · intro h
    by_cases hfg : f = g
    · exact Or.inl hfg
    · have hat : ∀ x, (written fm a f).flows.elt x = (written fm a g).flows.elt x := by
        intro x
        rw [h]
      have hf := hat f
      have hg := hat g
      rw [elt_written, elt_written, if_pos rfl, if_neg hfg] at hf
      rw [elt_written, elt_written, if_neg (Ne.symm hfg), if_pos rfl] at hg
      exact Or.inr ⟨hf, hg.symm⟩
  · rintro (rfl | ⟨hf, hg⟩)
    · rfl
    · rw [HasData] at hf hg
      rw [written_eq, written_eq, hf, hg]
      simp [FlowTable.setFlow, PoolStore.set]

theorem update_found (hi : Inv fm lines slots) {a : UpdateArgs} {f : Nat}
    (hf : updateEnd fm a (lineFlows fm (lines (hashSignature (updateSignature a)))) = some f) :
    flowtableUpdate fm a = some (written fm a f, 0) := by
  rw [flowtableUpdate_eq hi, hf, written_eq]

theorem updateEnd_eq_none {a : UpdateArgs} {flows : List Nat} :
    updateEnd fm a flows = none ↔ flows = [] := by
  rw [updateEnd, Option.or_eq_none_iff, List.getLast?_eq_none_iff]
  constructor
  · exact And.right
  · rintro rfl
    exact ⟨rfl, rfl⟩

theorem ret_ne (x y : FlowtableMain) : some (x, (0 : Int)) ≠ some (y, -1) := by
  intro h
  have hrv : (0 : Int) = -1 := congrArg Prod.snd (Option.some.inj h)
  omega

theorem update_iff_empty (hi : Inv fm lines slots) (a : UpdateArgs)
    (hend : updateEnd fm a (lineFlows fm (lines (hashSignature (updateSignature a)))) = none) :
    UpdatesExactFlow fm a ↔ EndsWell fm a := by
  have hcall : flowtableUpdate fm a = some (fm, -1) := by rw [flowtableUpdate_eq hi, hend]
  have hline : ∀ f, Live fm.flows f →
      (fm.flows.elt f).sigHash ≠ hashSignature (updateSignature a) := by
    intro f hf hk
    have hm := (mem_lineFlows hi).mpr ⟨hf, hk⟩
    rw [updateEnd_eq_none.mp hend] at hm
    exact absurd hm List.not_mem_nil
  constructor
  · rintro (⟨hno, _⟩ | ⟨f, _, hf⟩)
    · exact Or.inl fun f hf => ⟨hline f hf, hno f⟩
    · exact absurd (hf.symm.trans hcall) (ret_ne _ _)
  · rintro (hno | ⟨f, hf, _⟩)
    · exact Or.inl ⟨fun f hf => (hno f hf.live).2 hf, hcall⟩
    · rw [endsAt_iff hi, hend] at hf
      exact absurd hf.symm (Option.some_ne_none f)

theorem update_iff_found (hi : Inv fm lines slots) (a : UpdateArgs) {g : Nat}
    (hend : updateEnd fm a (lineFlows fm (lines (hashSignature (updateSignature a)))) = some g) :
    UpdatesExactFlow fm a ↔ EndsWell fm a := by
  have hcall := update_found hi hend
  have hg : Live fm.flows g ∧ (fm.flows.elt g).sigHash = hashSignature (updateSignature a) := by
    obtain ⟨before, after, hl, _⟩ := find_or_last.mp hend
    apply (mem_lineFlows hi).mp
    rw [hl]
    simp
  have hat : ∀ f, EndsAt fm a (hashSignature (updateSignature a)) f ↔ g = f := by
    intro f
    rw [endsAt_iff hi, hend, Option.some_inj]
  constructor
  · rintro (⟨_, hf⟩ | ⟨f, hf, hw⟩)
    · exact absurd (hcall.symm.trans hf) (ret_ne _ _)
    · have heq : written fm a g = written fm a f :=
        congrArg Prod.fst (Option.some.inj (hcall.symm.trans hw))
      refine Or.inr ⟨g, (hat g).mpr rfl, ?_⟩
      obtain rfl | ⟨hdg, hdf⟩ := written_inj.mp heq
      · exact Or.inl hf
      · exact Or.inr ⟨hdg, f, hf, hdf⟩
  · rintro (hno | ⟨f, hf, hdata⟩)
    · exact absurd hg.2 (hno g hg.1).1
    · obtain rfl := (hat f).mp hf
      right
      obtain hexact | ⟨hdg, f, hexact, hdf⟩ := hdata
      · exact ⟨g, hexact, hcall⟩
      · exact ⟨f, hexact, by rw [hcall, written_inj.mpr (Or.inr ⟨hdg, hdf⟩)]⟩

theorem update_iff (hi : Inv fm lines slots) (a : UpdateArgs) :
    UpdatesExactFlow fm a ↔ EndsWell fm a := by
  cases hend : updateEnd fm a (lineFlows fm (lines (hashSignature (updateSignature a)))) with
  | none => exact update_iff_empty hi a hend
  | some g => exact update_iff_found hi a hend

end Effect

/-- In every table that frames and updates reach, an update touches just the
flow with the signature of its arguments, and fails without one, when and only
when the search does not end with another flow of the hash line. -/
theorem run_update_iff (cmp : AddressCompare) (next : Nat) (events : List Event)
    (fm : FlowtableMain) (hr : run (step cmp) (flowtableInit next) events = some fm)
    (a : UpdateArgs) : UpdatesExactFlow fm a ↔ EndsWell fm a := by
  obtain ⟨lines, slots, hi⟩ := reachable_linked cmp next hr
  exact update_iff hi a

def storedFrame : Event := .frame 1 7 [⟨udpBuffer 1 2, fun _ => sigBytes firstSig⟩]

theorem storedFrame_run {α : Type} (g : FlowtableMain → α) {x : α}
    (hx : (run (step sampleCompare) (flowtableInit 0) [storedFrame]).map g = some x) :
    ∃ fm, run (step sampleCompare) (flowtableInit 0) [storedFrame] = some fm ∧ g fm = x :=
  Option.map_eq_some_iff.mp hx

theorem run_update_iff_sample :
    ∃ fm, run (step sampleCompare) (flowtableInit 0) [storedFrame] = some fm ∧
      (UpdatesExactFlow fm udpArgs ↔ EndsWell fm udpArgs) := by
  have heval : (run (step sampleCompare) (flowtableInit 0) [storedFrame]).map (fun _ => ()) =
      some () := by
    rw [flowtableInit_eq]
    decide +kernel
  obtain ⟨fm, hr, _⟩ := storedFrame_run _ heval
  exact ⟨fm, hr, run_update_iff sampleCompare 0 _ fm hr udpArgs⟩

def strangerArgs : UpdateArgs := ⟨true, 0x0200000a, 0x0100000a, 17, 0x0400, 0x0700, 5, 1, []⟩

/-- An update for a connection that is not in the table offloads a flow of
another connection. -/
theorem update_hits_stranger :
    ∃ fm, run (step sampleCompare) (flowtableInit 0) [storedFrame] = some fm ∧
      (∀ f, ¬ ExactFlow fm strangerArgs f) ∧
      flowtableUpdate fm strangerArgs = some (written fm strangerArgs 0, 0) ∧
      ¬ UpdatesExactFlow fm strangerArgs := by
  have heval : (run (step sampleCompare) (flowtableInit 0) [storedFrame]).map (fun fm =>
      (fm.flows.len, sameBytes (fm.flows.elt 0).sig (sigBytes (updateSignature strangerArgs)) 13,
        (flowtableUpdate fm strangerArgs).map (fun r => r.2))) = some (1, false, some 0) := by
    rw [flowtableInit_eq]
    decide +kernel
  obtain ⟨fm, hr, he⟩ := storedFrame_run _ heval
  obtain ⟨hlen, he⟩ := Prod.mk.inj he
  obtain ⟨hsig, hrv⟩ := Prod.mk.inj he
  obtain ⟨lines, slots, hi⟩ := reachable_linked sampleCompare 0 hr
  have hno : ∀ f, ¬ ExactFlow fm strangerArgs f := by
    intro f hf
    have hlt : f < fm.flows.len := hf.live.1
    obtain rfl : f = 0 := by omega
    have hs : sameBytes (fm.flows.elt 0).sig (sigBytes (updateSignature strangerArgs)) 13 = true :=
      hf.sig
    rw [hsig] at hs
    exact absurd hs (by decide)
  refine ⟨fm, hr, hno, ?_, ?_⟩
  · cases hend : updateEnd fm strangerArgs
        (lineFlows fm (lines (hashSignature (updateSignature strangerArgs)))) with
    | none =>
      rw [flowtableUpdate_eq hi, hend] at hrv
      have h : (-1 : Int) = 0 := Option.some.inj hrv
      exact absurd h (by decide)
    | some g =>
      obtain ⟨before, after, hl, _⟩ := find_or_last.mp hend
      have hg : g ∈ lineFlows fm (lines (hashSignature (updateSignature strangerArgs))) := by
        rw [hl]
        simp
      have hlt : g < fm.flows.len := ((mem_lineFlows hi).mp hg).1.1
      obtain rfl : g = 0 := by omega
      exact update_found hi hend
  · rintro (⟨_, h⟩ | ⟨f, hf, _⟩)
    · rw [h] at hrv
      have hrv' : (-1 : Int) = 0 := Option.some.inj hrv
      exact absurd hrv' (by decide)
    · exact hno f hf

end Vppsb.FlowUpdateEffect
