import Vppsb.MapperRoutes

namespace Vppsb.MapperSpaces

open Vppsb.StepRun Vppsb.PoolStore Vppsb.KeyedPool
open Vppsb.MapperRoutes (MapperMap)

structure MapperNs where
  nsname : List UInt8
  mappings : Pool MapperMap
  netnsHandle : UInt32
  v4fibIndex : UInt32
  v6fibIndex : UInt32

/-- `mapper_main`, with the bindings of the interfaces to their FIBs. -/
structure MapperMain where
  namespaces : Pool MapperNs
  ip4FibIndexBySwIfIndex : UInt32 → UInt32
  ip6FibIndexBySwIfIndex : UInt32 → UInt32

def rtnlNetnsNamelen : Nat := 128

def mapperGetNs (mm : MapperMain) (nsname : List UInt8) : Option Nat :=
  findLive (fun ns => decide (nsname = ns.nsname)) mm.namespaces

def setNs (mm : MapperMain) (i : Nat) (mappings : Pool MapperMap) : MapperMain :=
  { mm with namespaces := set mm.namespaces i { mm.namespaces.elt i with mappings := mappings } }

def bindFibs (mm : MapperMain) (i : Nat) (swIfIndex : UInt32) : MapperMain :=
  { mm with
    ip6FibIndexBySwIfIndex := Function.update mm.ip6FibIndexBySwIfIndex swIfIndex
      (mm.namespaces.elt i).v6fibIndex
    ip4FibIndexBySwIfIndex := Function.update mm.ip4FibIndexBySwIfIndex swIfIndex
      (mm.namespaces.elt i).v4fibIndex }

def mapperGetmap (mm : MapperMain) (i : Nat) (swIfIndex linuxIfindex : UInt32) (create : Bool) :
    MapperMain × Option Nat :=
  let mappings := (mm.namespaces.elt i).mappings
  match findLive (fun map => decide (linuxIfindex = map.linuxIfindex)) mappings with
  | some j => if swIfIndex ≠ (mappings.elt j).swIfIndex then (mm, none) else (mm, some j)
  | none =>
    if create = false then (mm, none)
    else
      (bindFibs (setNs mm i (insert mappings ⟨linuxIfindex, swIfIndex⟩)) i swIfIndex,
        some (fresh mappings))

def mapperDelmap (mm : MapperMain) (i j : Nat) : MapperMain :=
  setNs mm i (put (mm.namespaces.elt i).mappings j)

def mapperAddDel (mm : MapperMain) (nsindex : Nat) (linuxIfindex swIfIndex : UInt32) (del : Bool) :
    MapperMain × Int :=
  if ¬ Live mm.namespaces nsindex then (mm, -1)
  else
    match mapperGetmap mm nsindex swIfIndex linuxIfindex (!del) with
    | (mm, none) => (mm, -1)
    | (mm, some j) => (if del then mapperDelmap mm nsindex j else mm, 0)

/-- `handle` is what `netns_open` returns. A name that is too long overruns the
array it is copied to. On success the index of the namespace is returned too. -/
def mapperAddNs (mm : MapperMain) (nsname : List UInt8) (v4fibIndex v6fibIndex handle : UInt32) :
    Option (MapperMain × Int × Option Nat) :=
  if mapperGetNs mm nsname ≠ none then some (mm, -1, none)
  else if rtnlNetnsNamelen < nsname.length then none
  else
    let i := fresh mm.namespaces
    let ns : MapperNs := ⟨nsname, empty ⟨0, 0⟩, handle, v4fibIndex, v6fibIndex⟩
    let mm := { mm with namespaces := insert mm.namespaces ns }
    if handle = 0xffffffff then some ({ mm with namespaces := put mm.namespaces i }, -1, none)
    else some (mm, 0, some i)

def mapperDelNs (mm : MapperMain) (nsindex : Nat) : MapperMain × Int :=
  if ¬ Live mm.namespaces nsindex then (mm, -1)
  else
    let indexes := liveIndices (mm.namespaces.elt nsindex).mappings
    let mm := indexes.foldl (fun mm j => mapperDelmap mm nsindex j) mm
    ({ mm with namespaces := put mm.namespaces nsindex }, 0)

inductive Call where
  | addNs (nsname : List UInt8) (v4fibIndex v6fibIndex handle : UInt32)
  | delNs (nsindex : Nat)
  | addDel (nsindex : Nat) (linuxIfindex swIfIndex : UInt32) (del : Bool)

def call (mm : MapperMain) : Call → Option (MapperMain × Int)
  | .addNs nsname v4fibIndex v6fibIndex handle =>
    (mapperAddNs mm nsname v4fibIndex v6fibIndex handle).map (fun r => (r.1, r.2.1))
  | .delNs nsindex => some (mapperDelNs mm nsindex)
  | .addDel nsindex linuxIfindex swIfIndex del =>
    some (mapperAddDel mm nsindex linuxIfindex swIfIndex del)

def step (mm : MapperMain) (c : Call) : Option MapperMain := (call mm c).map (fun r => r.1)

def zeroNs : MapperNs := ⟨[], empty ⟨0, 0⟩, 0, 0, 0⟩

def start (ip4 ip6 : UInt32 → UInt32) : MapperMain := ⟨empty zeroNs, ip4, ip6⟩

/-- In namespace `i` the Linux interface is mapped to the given one. -/
def Maps (mm : MapperMain) (i : Nat) (linuxIfindex swIfIndex : UInt32) : Prop :=
  Live mm.namespaces i ∧ ∃ j, Live (mm.namespaces.elt i).mappings j ∧
    (mm.namespaces.elt i).mappings.elt j = ⟨linuxIfindex, swIfIndex⟩

def BoundTo (mm : MapperMain) (i : Nat) (swIfIndex : UInt32) : Prop :=
  mm.ip4FibIndexBySwIfIndex swIfIndex = (mm.namespaces.elt i).v4fibIndex ∧
    mm.ip6FibIndexBySwIfIndex swIfIndex = (mm.namespaces.elt i).v6fibIndex

instance (mm : MapperMain) (i : Nat) (swIfIndex : UInt32) : Decidable (BoundTo mm i swIfIndex) :=
  inferInstanceAs (Decidable (_ ∧ _))

/-- Every mapped interface is bound to the tables of all its namespaces. -/
def Bound (mm : MapperMain) : Prop := ∀ i l sw, Maps mm i l sw → BoundTo mm i sw

def SameFibs (mm : MapperMain) (i k : Nat) : Prop :=
  (mm.namespaces.elt i).v4fibIndex = (mm.namespaces.elt k).v4fibIndex ∧
    (mm.namespaces.elt i).v6fibIndex = (mm.namespaces.elt k).v6fibIndex

/-- A mapping is not added to an interface that a namespace with other tables
has mapped. -/
def Agreed (mm : MapperMain) : Call → Prop
  | .addDel i l sw false => Live mm.namespaces i → (∀ sw', ¬ Maps mm i l sw') →
      ∀ k l', Maps mm k l' sw → SameFibs mm k i
  | _ => True

structure Same (mm mm' : MapperMain) : Prop where
  live : ∀ i, Live mm'.namespaces i ↔ Live mm.namespaces i
  elt : ∀ i, Live mm.namespaces i → mm'.namespaces.elt i = mm.namespaces.elt i
  ip4 : mm'.ip4FibIndexBySwIfIndex = mm.ip4FibIndexBySwIfIndex
  ip6 : mm'.ip6FibIndexBySwIfIndex = mm.ip6FibIndexBySwIfIndex

structure Sound (mm : MapperMain) : Prop where
  wf : WF mm.namespaces
  names : Unique MapperNs.nsname mm.namespaces
  maps : ∀ i, Live mm.namespaces i → WF (mm.namespaces.elt i).mappings ∧
    Unique MapperMap.linuxIfindex (mm.namespaces.elt i).mappings

variable {mm mm' : MapperMain} {i k : Nat} {l sw : UInt32}

section SetNs

variable (mappings : Pool MapperMap)

@[simp] theorem live_setNs : Live (setNs mm i mappings).namespaces k ↔ Live mm.namespaces k :=
  Iff.rfl

theorem elt_setNs_self : (setNs mm i mappings).namespaces.elt i =
    { mm.namespaces.elt i with mappings := mappings } := elt_set_self

theorem elt_setNs_of_ne (h : k ≠ i) :
    (setNs mm i mappings).namespaces.elt k = mm.namespaces.elt k := elt_set_of_ne h

theorem setNs_fields (mm : MapperMain) (mappings : Pool MapperMap) (k : Nat) :
    ((setNs mm i mappings).namespaces.elt k).nsname = (mm.namespaces.elt k).nsname ∧
      ((setNs mm i mappings).namespaces.elt k).v4fibIndex = (mm.namespaces.elt k).v4fibIndex ∧
      ((setNs mm i mappings).namespaces.elt k).v6fibIndex = (mm.namespaces.elt k).v6fibIndex := by
  by_cases h : k = i
  · rw [h, elt_setNs_self]
    exact ⟨rfl, rfl, rfl⟩
  · rw [elt_setNs_of_ne mappings h]
    exact ⟨rfl, rfl, rfl⟩

theorem Sound.setNs (hs : Sound mm) (hm : WF mappings ∧ Unique MapperMap.linuxIfindex mappings) :
    Sound (setNs mm i mappings) := by
  refine ⟨wf_set hs.wf _ _, hs.names.set rfl, fun k hk => ?_⟩
  by_cases h : k = i
  · rw [h, elt_setNs_self]
    exact hm
  · rw [elt_setNs_of_ne mappings h]
    exact hs.maps k hk

end SetNs

theorem Same.refl (mm : MapperMain) : Same mm mm := ⟨fun _ => Iff.rfl, fun _ _ => rfl, rfl, rfl⟩

theorem Same.maps (hs : Same mm mm') : Maps mm' i l sw ↔ Maps mm i l sw := by
  rw [Maps, Maps, hs.live i]
  refine and_congr_right fun hi => ?_
  rw [hs.elt i hi]

theorem Same.bound (hs : Same mm mm') (hb : Bound mm) : Bound mm' := by
  intro i l sw hm
  have hm' := hs.maps.mp hm
  rw [BoundTo, hs.ip4, hs.ip6, hs.elt i hm'.1]
  exact hb i l sw hm'

theorem Same.sound (hs : Same mm mm') (hw : WF mm'.namespaces) (h : Sound mm) : Sound mm' := by
  refine ⟨hw, fun i k hi hk hn => ?_, fun i hi => ?_⟩
  · have hi' := (hs.live i).mp hi
    have hk' := (hs.live k).mp hk
    rw [hs.elt i hi', hs.elt k hk'] at hn
    exact h.names i k hi' hk' hn
  · have hi' := (hs.live i).mp hi
    rw [hs.elt i hi']
    exact h.maps i hi'

theorem not_maps_of_none (h : findLive (fun map => decide (l = map.linuxIfindex))
    (mm.namespaces.elt i).mappings = none) : ¬ Maps mm i l sw := by
  rintro ⟨_, j, hj, he⟩
  have hn := findLive_none h hj
  simp [he] at hn

theorem maps_of_some {j : Nat} (hi : Live mm.namespaces i)
    (h : findLive (fun map => decide (l = map.linuxIfindex))
      (mm.namespaces.elt i).mappings = some j) :
    Live (mm.namespaces.elt i).mappings j ∧
      Maps mm i l ((mm.namespaces.elt i).mappings.elt j).swIfIndex := by
  obtain ⟨hj, ht⟩ := findLive_some h
  refine ⟨hj, hi, j, hj, ?_⟩
  rw [of_decide_eq_true ht]

theorem Sound.maps_unique (hs : Sound mm) {sw' : UInt32} (h : Maps mm i l sw)
    (h' : Maps mm i l sw') : sw = sw' := by
  obtain ⟨hi, j, hj, he⟩ := h
  obtain ⟨_, j', hj', he'⟩ := h'
  have hjj := (hs.maps i hi).2 j j' hj hj' (by rw [he, he'])
  rw [hjj, he'] at he
  exact (MapperMap.mk.inj he).2.symm

def mappedTo (mm : MapperMain) (i : Nat) (l sw : UInt32) : MapperMain :=
  bindFibs (setNs mm i (insert (mm.namespaces.elt i).mappings ⟨l, sw⟩)) i sw

inductive Called (mm : MapperMain) : Call → MapperMain → Int → Prop
  | failed (c : Call) (mm' : MapperMain) (wf : WF mm'.namespaces) (same : Same mm mm')
      (agreed : Agreed mm c) : Called mm c mm' (-1)
  | present (i : Nat) (l sw : UInt32) (maps : Maps mm i l sw) :
      Called mm (.addDel i l sw false) mm 0
  | added (i : Nat) (l sw : UInt32) (live : Live mm.namespaces i)
      (free : ∀ sw', ¬ Maps mm i l sw') : Called mm (.addDel i l sw false) (mappedTo mm i l sw) 0
  | removed (i j : Nat) (l sw : UInt32) (live : Live mm.namespaces i)
      (slot : Live (mm.namespaces.elt i).mappings j) :
      Called mm (.addDel i l sw true) (mapperDelmap mm i j) 0
  | opened (nsname : List UInt8) (v4 v6 handle : UInt32)
      (free : ¬ Holds MapperNs.nsname mm.namespaces nsname) :
      Called mm (.addNs nsname v4 v6 handle)
        { mm with namespaces := insert mm.namespaces ⟨nsname, empty ⟨0, 0⟩, handle, v4, v6⟩ } 0
  | closed (i : Nat) (mm' : MapperMain) (wf : WF mm'.namespaces) (live : Live mm.namespaces i)
      (others : ∀ k, Live mm'.namespaces k ↔ Live mm.namespaces k ∧ k ≠ i)
      (elt : ∀ k, k ≠ i → mm'.namespaces.elt k = mm.namespaces.elt k)
      (ip4 : mm'.ip4FibIndexBySwIfIndex = mm.ip4FibIndexBySwIfIndex)
      (ip6 : mm'.ip6FibIndexBySwIfIndex = mm.ip6FibIndexBySwIfIndex) :
      Called mm (.delNs i) mm' 0

theorem mapperGetmap_none (h : findLive (fun map => decide (l = map.linuxIfindex))
    (mm.namespaces.elt i).mappings = none) (create : Bool) : mapperGetmap mm i sw l create =
      if create = false then (mm, none)
      else (mappedTo mm i l sw, some (fresh (mm.namespaces.elt i).mappings)) := by
  simp only [mapperGetmap, h]
  rfl

theorem mapperGetmap_some {j : Nat} (h : findLive (fun map => decide (l = map.linuxIfindex))
    (mm.namespaces.elt i).mappings = some j) (create : Bool) : mapperGetmap mm i sw l create =
      if sw ≠ ((mm.namespaces.elt i).mappings.elt j).swIfIndex then (mm, none)
      else (mm, some j) := by
  simp only [mapperGetmap, h]

theorem agreed_of_maps (h : Maps mm i l sw) {sw' : UInt32} : Agreed mm (.addDel i l sw' false) :=
  fun _ hfree => absurd h (hfree sw)

theorem addDel_called (hw : WF mm.namespaces) (i : Nat) (l sw : UInt32) (del : Bool) :
    Called mm (.addDel i l sw del) (mapperAddDel mm i l sw del).1
      (mapperAddDel mm i l sw del).2 := by
  by_cases hi : Live mm.namespaces i
  · cases hf : findLive (fun map => decide (l = map.linuxIfindex))
        (mm.namespaces.elt i).mappings with
    | none =>
      simp only [mapperAddDel, hi, not_true, if_false, mapperGetmap_none hf]
      cases del with
      | true => exact .failed _ _ hw (Same.refl mm) trivial
      | false => exact .added i l sw hi fun sw' => not_maps_of_none hf
    | some j =>
      obtain ⟨hj, hm⟩ := maps_of_some hi hf
      simp only [mapperAddDel, hi, not_true, if_false, mapperGetmap_some hf]
      by_cases hsw : sw = ((mm.namespaces.elt i).mappings.elt j).swIfIndex
      · rw [if_neg (not_not.mpr hsw)]
        cases del with
        | true => exact .removed i j l sw hi hj
        | false => exact .present i l sw (hsw ▸ hm)
      · rw [if_pos hsw]
        cases del with
        | true => exact .failed _ _ hw (Same.refl mm) trivial
        | false => exact .failed _ _ hw (Same.refl mm) (agreed_of_maps hm)
  · simp only [mapperAddDel, hi, not_false_eq_true, if_true]
    refine .failed _ _ hw (Same.refl mm) ?_
    cases del with
    | true => exact trivial
    | false => exact fun hl => absurd hl hi

theorem foldl_delmap (indexes : List Nat) (mm : MapperMain) (i : Nat) :
    let mm' := indexes.foldl (fun mm j => mapperDelmap mm i j) mm
    (mm'.namespaces.len = mm.namespaces.len ∧ mm'.namespaces.free = mm.namespaces.free) ∧
      (∀ k, k ≠ i → mm'.namespaces.elt k = mm.namespaces.elt k) ∧
      mm'.ip4FibIndexBySwIfIndex = mm.ip4FibIndexBySwIfIndex ∧
      mm'.ip6FibIndexBySwIfIndex = mm.ip6FibIndexBySwIfIndex := by
  induction indexes generalizing mm with
  | nil => exact ⟨⟨rfl, rfl⟩, fun _ _ => rfl, rfl, rfl⟩
  | cons j indexes ih =>
    obtain ⟨hl, he, h4, h6⟩ := ih (mapperDelmap mm i j)
    exact ⟨hl, fun k hk => (he k hk).trans (elt_setNs_of_ne _ hk), h4, h6⟩

theorem delNs_called (hw : WF mm.namespaces) (i : Nat) :
    Called mm (.delNs i) (mapperDelNs mm i).1 (mapperDelNs mm i).2 := by
  by_cases hi : Live mm.namespaces i
  · simp only [mapperDelNs, hi, not_true, if_false]
    obtain ⟨⟨hl, hf⟩, he, h4, h6⟩ :=
      foldl_delmap (liveIndices (mm.namespaces.elt i).mappings) mm i
    generalize List.foldl _ mm _ = mm' at hl hf he h4 h6 ⊢
    have hlive : ∀ k, Live mm'.namespaces k ↔ Live mm.namespaces k := fun k => by
      rw [Live, Live, hl, hf]
    have hw' : WF mm'.namespaces := ⟨hf ▸ hw.nodup, fun k hk => hl ▸ hw.bound k (hf ▸ hk)⟩
    refine .closed i _ (wf_put hw' ((hlive i).mpr hi)) hi (fun k => ?_) he h4 h6
    rw [live_put, hlive]
  · simp only [mapperDelNs, hi, not_false_eq_true, if_true]
    exact .failed _ _ hw (Same.refl mm) trivial

theorem same_put_insert (hw : WF mm.namespaces) (ns : MapperNs) :
    Same mm { mm with namespaces := put (insert mm.namespaces ns) (fresh mm.namespaces) } :=
  ⟨live_put_get hw, fun _ hi => elt_insert_old hi, rfl, rfl⟩

theorem addNs_called (hw : WF mm.namespaces) {nsname : List UInt8} {v4 v6 handle : UInt32}
    {r : MapperMain × Int × Option Nat} (hr : mapperAddNs mm nsname v4 v6 handle = some r) :
    Called mm (.addNs nsname v4 v6 handle) r.1 r.2.1 := by
  unfold mapperAddNs at hr
  split at hr
  · obtain rfl := Option.some.inj hr
    exact .failed _ _ hw (Same.refl mm) trivial
  · rename_i hnone
    split at hr
    · cases hr
    · split at hr
      · obtain rfl := Option.some.inj hr
        have hlive := (live_insert (a := ⟨nsname, empty ⟨0, 0⟩, handle, v4, v6⟩) hw
          (fresh mm.namespaces)).mpr (Or.inr rfl)
        exact .failed _ _ (wf_put (wf_insert hw) hlive) (same_put_insert hw _) trivial
      · obtain rfl := Option.some.inj hr
        refine .opened nsname v4 v6 handle ?_
        rintro ⟨k, hk, rfl⟩
        have hn := findLive_none (not_not.mp hnone) hk
        simp at hn

theorem call_called (hw : WF mm.namespaces) {c : Call} {r : MapperMain × Int}
    (hr : call mm c = some r) : Called mm c r.1 r.2 := by
  cases c with
  | addDel i l sw del =>
    obtain rfl := Option.some.inj hr
    exact addDel_called hw i l sw del
  | delNs i =>
    obtain rfl := Option.some.inj hr
    exact delNs_called hw i
  | addNs nsname v4 v6 handle =>
    obtain ⟨r', hr', rfl⟩ := Option.map_eq_some_iff.mp hr
    exact addNs_called hw hr'

theorem Called.sound (hs : Sound mm) {c : Call} {r : Int} (hc : Called mm c mm' r) :
    Sound mm' := by
  cases hc with
  | failed _ _ hw hsame _ => exact hsame.sound hw hs
  | present => exact hs
  | added i l sw hi hfree =>
    obtain ⟨hw, hu⟩ := hs.maps i hi
    have hn : ¬ Holds MapperMap.linuxIfindex (mm.namespaces.elt i).mappings l := by
      rintro ⟨j, hj, rfl⟩
      exact hfree _ ⟨hi, j, hj, rfl⟩
    have hset := hs.setNs (i := i) _ ⟨wf_insert (a := (⟨l, sw⟩ : MapperMap)) hw, hu.insert hw hn⟩
    exact ⟨hset.wf, hset.names, hset.maps⟩
  | removed i j l sw hi hj =>
    obtain ⟨hw, hu⟩ := hs.maps i hi
    exact hs.setNs _ ⟨wf_put hw hj, hu.put j⟩
  | opened nsname v4 v6 handle hfree =>
    refine ⟨wf_insert hs.wf, hs.names.insert hs.wf hfree, fun k hk => ?_⟩
    obtain hk | rfl := (live_insert hs.wf k).mp hk
    · rw [elt_insert_old hk]
      exact hs.maps k hk
    · rw [elt_insert_fresh]
      exact ⟨wf_empty _, unique_empty _⟩
  | closed i _ hw hi hothers helt _ _ =>
    refine ⟨hw, fun j k hj hk hn => ?_, fun k hk => ?_⟩
    · obtain ⟨hj, hji⟩ := (hothers j).mp hj
      obtain ⟨hk, hki⟩ := (hothers k).mp hk
      rw [helt j hji, helt k hki] at hn
      exact hs.names j k hj hk hn
    · obtain ⟨hk, hki⟩ := (hothers k).mp hk
      rw [helt k hki]
      exact hs.maps k hk

theorem mappedTo_fields (mm : MapperMain) (i : Nat) (l sw : UInt32) (k : Nat) :
    ((mappedTo mm i l sw).namespaces.elt k).v4fibIndex = (mm.namespaces.elt k).v4fibIndex ∧
      ((mappedTo mm i l sw).namespaces.elt k).v6fibIndex = (mm.namespaces.elt k).v6fibIndex :=
  (setNs_fields mm (i := i) _ k).2

theorem maps_mappedTo (hs : Sound mm) (hi : Live mm.namespaces i) {l' sw' : UInt32} :
    Maps (mappedTo mm i l sw) k l' sw' ↔ Maps mm k l' sw' ∨ k = i ∧ l' = l ∧ sw' = sw := by
  by_cases hk : k = i
  · subst hk
    have hwf := (hs.maps k hi).1
    simp only [Maps, mappedTo, bindFibs, elt_setNs_self, live_setNs, hi, true_and]
    constructor
    · rintro ⟨j, hj, he⟩
      obtain hj | rfl := (live_insert hwf j).mp hj
      · rw [elt_insert_old hj] at he
        exact Or.inl ⟨j, hj, he⟩
      · rw [elt_insert_fresh] at he
        obtain ⟨rfl, rfl⟩ := MapperMap.mk.inj he
        exact Or.inr ⟨rfl, rfl⟩
    · rintro (⟨j, hj, he⟩ | ⟨rfl, rfl⟩)
      · exact ⟨j, (live_insert hwf j).mpr (Or.inl hj), by rw [elt_insert_old hj, he]⟩
      · exact ⟨_, (live_insert hwf _).mpr (Or.inr rfl), elt_insert_fresh⟩
  · simp only [Maps, mappedTo, bindFibs, elt_setNs_of_ne _ hk, live_setNs, hk, false_and, or_false]

/-- A new mapping binds its interface to the tables of its namespace alone. -/
theorem mappedTo_bound_iff (hs : Sound mm) (hb : Bound mm) (hi : Live mm.namespaces i) :
    Bound (mappedTo mm i l sw) ↔ ∀ k l', Maps mm k l' sw → SameFibs mm k i := by
  have hself : ∀ k, BoundTo (mappedTo mm i l sw) k sw ↔ SameFibs mm k i := by
    intro k
    obtain ⟨h4, h6⟩ := mappedTo_fields mm i l sw k
    obtain ⟨g4, g6⟩ := (setNs_fields mm (i := i)
      (insert (mm.namespaces.elt i).mappings ⟨l, sw⟩) i).2
    rw [BoundTo, h4, h6]
    simp only [mappedTo, bindFibs, Function.update_self, SameFibs, g4, g6]
    rw [eq_comm, eq_comm (a := (mm.namespaces.elt i).v6fibIndex)]
  constructor
  · intro h k l' hm
    exact (hself k).mp (h k l' sw ((maps_mappedTo hs hi).mpr (Or.inl hm)))
  · intro h k l' sw' hm
    by_cases hsw : sw' = sw
    · subst hsw
      refine (hself k).mpr ?_
      obtain hm | ⟨rfl, _, _⟩ := (maps_mappedTo hs hi).mp hm
      · exact h k l' hm
      · exact ⟨rfl, rfl⟩
    · obtain hm | ⟨_, _, hne⟩ := (maps_mappedTo hs hi).mp hm
      · obtain ⟨h4, h6⟩ := mappedTo_fields mm i l sw k
        rw [BoundTo, h4, h6]
        simp only [mappedTo, bindFibs, Function.update_of_ne hsw]
        exact hb k l' sw' hm
      · exact absurd hne hsw

theorem Called.bound_iff (hs : Sound mm) (hb : Bound mm) {c : Call} {r : Int}
    (hc : Called mm c mm' r) : Bound mm' ↔ Agreed mm c := by
  cases hc with
  | failed _ _ _ hsame ha => exact iff_of_true (hsame.bound hb) ha
  | present i l sw hm => exact iff_of_true hb (agreed_of_maps hm)
  | added i l sw hi hfree =>
    rw [mappedTo_bound_iff hs hb hi]
    exact ⟨fun h _ _ => h, fun h => h hi hfree⟩
  | removed i j l sw hi hj =>
    refine iff_of_true (fun k l' sw' hm => ?_) trivial
    obtain ⟨_, h4, h6⟩ := setNs_fields mm (i := i) (put (mm.namespaces.elt i).mappings j) k
    have hm' : Maps mm k l' sw' := by
      obtain ⟨hk, j', hj', he⟩ := hm
      refine ⟨hk, ?_⟩
      by_cases hki : k = i
      · subst hki
        simp only [mapperDelmap, elt_setNs_self, live_put, elt_put] at hj' he
        exact ⟨j', hj'.1, he⟩
      · simp only [mapperDelmap, elt_setNs_of_ne _ hki] at hj' he
        exact ⟨j', hj', he⟩
    rw [BoundTo, mapperDelmap, h4, h6]
    exact hb k l' sw' hm'
  | opened nsname v4 v6 handle hfree =>
    refine iff_of_true (fun k l' sw' hm => ?_) trivial
    obtain ⟨hk, j, hj, he⟩ := hm
    obtain hk | rfl := (live_insert hs.wf k).mp hk
    · simp only [elt_insert_old hk] at hj he
      rw [BoundTo]
      simp only [elt_insert_old hk]
      exact hb k l' sw' ⟨hk, j, hj, he⟩
    · simp only [elt_insert_fresh] at hj
      exact absurd hj.1 (Nat.not_lt_zero j)
  | closed i _ _ _ hothers helt h4 h6 =>
    refine iff_of_true (fun k l' sw' hm => ?_) trivial
    obtain ⟨hk, j, hj, he⟩ := hm
    obtain ⟨hk, hki⟩ := (hothers k).mp hk
    rw [helt k hki] at hj he
    rw [BoundTo, h4, h6, helt k hki]
    exact hb k l' sw' ⟨hk, j, hj, he⟩

theorem Called.same {c : Call} {r : Int} (hc : Called mm c mm' r) (hr : r = -1) :
    Same mm mm' := by
  cases hc with
  | failed _ _ _ hsame _ => exact hsame
  | present | added | removed | opened | closed => exact absurd hr (by decide)

theorem Called.maps (hs : Sound mm) {c : Call} {r : Int} (hc : Called mm c mm' r) (hr : r = 0)
    (he : c = .addDel i l sw false) : Maps mm' i l sw := by
  cases hc with
  | failed => exact absurd hr (by decide)
  | present i' l' sw' hm =>
    cases he
    exact hm
  | added i' l' sw' hi _ =>
    cases he
    exact (maps_mappedTo hs hi).mpr (Or.inr ⟨rfl, rfl, rfl⟩)
  | removed | opened | closed => cases he

theorem call_repeated (hs : Sound mm) (hm : Maps mm i l sw) :
    call mm (.addDel i l sw false) = some (mm, 0) := by
  cases hf : findLive (fun map => decide (l = map.linuxIfindex))
      (mm.namespaces.elt i).mappings with
  | none => exact absurd hm (not_maps_of_none hf)
  | some j =>
    have hsw := hs.maps_unique hm (maps_of_some hm.1 hf).2
    simp only [call, mapperAddDel, hm.1, not_true, if_false, mapperGetmap_some hf]
    rw [if_neg (not_not.mpr hsw)]
    rfl

structure Kept (mm : MapperMain) : Prop where
  names : Unique MapperNs.nsname mm.namespaces
  ifindexes : ∀ i, Live mm.namespaces i →
    Unique MapperMap.linuxIfindex (mm.namespaces.elt i).mappings
  failed : ∀ c mm', call mm c = some (mm', -1) → Same mm mm'
  mapped : ∀ i l sw mm', call mm (.addDel i l sw false) = some (mm', 0) → Maps mm' i l sw
  repeated : ∀ i l sw, Maps mm i l sw → call mm (.addDel i l sw false) = some (mm, 0)

theorem Sound.kept (hs : Sound mm) : Kept mm := by
  refine ⟨hs.names, fun i hi => (hs.maps i hi).2, fun c mm' hc => ?_, fun i l sw mm' hc => ?_,
    fun i l sw hm => call_repeated hs hm⟩
  · exact (call_called hs.wf hc).same rfl
  · exact (call_called hs.wf hc).maps hs rfl rfl

theorem start_sound (ip4 ip6 : UInt32 → UInt32) : Sound (start ip4 ip6) :=
  ⟨wf_empty _, unique_empty _, fun i hi => absurd hi.1 (Nat.not_lt_zero i)⟩

theorem step_called (hs : Sound mm) {c : Call} (hr : step mm c = some mm') :
    ∃ r, Called mm c mm' r := by
  obtain ⟨r, hc, rfl⟩ := Option.map_eq_some_iff.mp hr
  exact ⟨r.2, call_called hs.wf hc⟩

def twoSpaces (fib : UInt32) : List Call :=
  [.addNs [97] 1 2 5, .addNs [98] fib 2 6, .addDel 0 3 7 false, .addDel 1 4 7 false]

end Vppsb.MapperSpaces
