import Vppsb.FibPaths
import Vppsb.NetnsNotified
import Vppsb.NetnsUnique
import Vppsb.StepRun

namespace Vppsb.MapperRoutes

open Vppsb.StepRun Vppsb.PoolStore Vppsb.KeyedPool Vppsb.PoolImage Vppsb.NetnsEntry
  Vppsb.NetnsTables Vppsb.NetnsReceive Vppsb.NetnsNotified Vppsb.NetnsUnique Vppsb.FibPaths

structure MapperMap where
  linuxIfindex : UInt32
  swIfIndex : UInt32

structure MapperNs where
  routes : Pool Route
  mappings : Pool MapperMap
  fib : Finset FibPath

def mapperGetByIfindex (ns : MapperNs) (ifindex : UInt32) : Option Nat :=
  findLive (fun map => decide (ifindex = map.linuxIfindex)) ns.mappings

def isMulticast (route : Route) : Bool :=
  decide (byteAt route.hdr 0 = afInet6) && decide (byteAt route.hdr 1 ≥ 8) &&
    decide (byteAt (route.get .dst) 0 = 0xff)

def routePath (route : Route) (swIfIndex : UInt32) : FibPath :=
  if byteAt route.hdr 0 = afInet6 then ip6Path route swIfIndex else ip4Path route swIfIndex []

def fibTableEntryPathAdd (ns : MapperNs) (path : FibPath) : MapperNs :=
  { ns with fib := insert path ns.fib }

/-- `del` only shows in a warning. -/
def mapperAddDelRoute (ns : MapperNs) (route : Route) (_del : Bool) : MapperNs :=
  match mapperGetByIfindex ns (oif route) with
  | none => ns
  | some j =>
    if isMulticast route then ns
    else fibTableEntryPathAdd ns (routePath route (ns.mappings.elt j).swIfIndex)

def mapperNetnsNotifyCb (ns : MapperNs) (route : Route) (flags : Nat) : MapperNs :=
  if flags &&& netnsFDel ≠ 0 then mapperAddDelRoute ns route true
  else if flags &&& netnsFAdd ≠ 0 then mapperAddDelRoute ns route false
  else ns

/-- A route message is received in the namespace, and the mapper notified. A
route that was deleted is still in its slot. -/
def receiveRoute (ns : MapperNs) (m : Nlmsg) : MapperNs :=
  let out := nsRcvRoute ns.routes m
  let ns := { ns with routes := out.table }
  match out.note with
  | none => ns
  | some (i, flags) => mapperNetnsNotifyCb ns (out.table.elt i) flags

def foreachRoute (ns : MapperNs) (ifindex : UInt32) (del : Bool) : MapperNs :=
  (liveIndices ns.routes).foldl (fun t i =>
    if oif (ns.routes.elt i) = ifindex then mapperAddDelRoute t (ns.routes.elt i) del else t) ns

def mapperDelmap (ns : MapperNs) (j : Nat) : MapperNs :=
  let ns := foreachRoute ns (ns.mappings.elt j).linuxIfindex true
  { ns with mappings := put ns.mappings j }

def mapperGetmap (ns : MapperNs) (swIfIndex linuxIfindex : UInt32) (create : Bool) :
    MapperNs × Option Nat :=
  match findLive (fun map => decide (linuxIfindex = map.linuxIfindex)) ns.mappings with
  | some j => if swIfIndex ≠ (ns.mappings.elt j).swIfIndex then (ns, none) else (ns, some j)
  | none =>
    if create = false then (ns, none)
    else
      let j := fresh ns.mappings
      let ns := { ns with mappings := KeyedPool.insert ns.mappings ⟨linuxIfindex, swIfIndex⟩ }
      (foreachRoute ns linuxIfindex false, some j)

def mapperAddDel (ns : MapperNs) (linuxIfindex swIfIndex : UInt32) (del : Bool) : MapperNs × Int :=
  let r := mapperGetmap ns swIfIndex linuxIfindex (!del)
  match r.2 with
  | none => (r.1, -1)
  | some j => (if del then mapperDelmap r.1 j else r.1, 0)

inductive Act where
  | route (m : Nlmsg)
  | addDel (linuxIfindex swIfIndex : UInt32) (del : Bool)

def step (ns : MapperNs) : Act → Option MapperNs
  | .route m =>
    if m.nlmsgType = rtmNewroute ∨ m.nlmsgType = rtmDelroute then some (receiveRoute ns m) else none
  | .addDel linuxIfindex swIfIndex del => some (mapperAddDel ns linuxIfindex swIfIndex del).1

def start (routes : Pool Route) : MapperNs := ⟨routes, empty ⟨0, 0⟩, ∅⟩

/-- The interface that an interface of the namespace is mapped to. -/
def mapped (ns : MapperNs) (ifindex : UInt32) : Option UInt32 :=
  (mapperGetByIfindex ns ifindex).map (fun j => (ns.mappings.elt j).swIfIndex)

def pathOf (ns : MapperNs) (route : Route) : Option FibPath :=
  if isMulticast route then none else (mapped ns (oif route)).map (routePath route)

/-- The paths are those of the live routes, each with the interface its output
interface is mapped to. -/
structure Installed (ns : MapperNs) : Prop where
  routes : WF ns.routes
  mappings : WF ns.mappings
  unique : Unique MapperMap.linuxIfindex ns.mappings
  stands : Stands (pathOf ns) ns.routes ns.fib

/-- The last route with a path is not deleted, nor the mapping it needs. -/
def Spare (ns : MapperNs) : Act → Prop
  | .route m => m.nlmsgType = rtmDelroute → ∀ rtas i, attributes 12 m = some rtas →
    nsGetRoute ns.routes (header 12 m) rtas = some i →
      ∀ p, pathOf ns (ns.routes.elt i) = some p → p ∈ imageBut (pathOf ns) ns.routes i
  | .addDel linuxIfindex swIfIndex del => del = true → mapped ns linuxIfindex = some swIfIndex →
    ∀ i, Live ns.routes i → oif (ns.routes.elt i) = linuxIfindex →
      ∀ p, pathOf ns (ns.routes.elt i) = some p →
        ∃ k, Live ns.routes k ∧ oif (ns.routes.elt k) ≠ linuxIfindex ∧
          pathOf ns (ns.routes.elt k) = some p

variable {ns t : MapperNs} {route : Route} {del : Bool} {p : FibPath} {j : Nat}

theorem addDelRoute_eq : mapperAddDelRoute ns route del =
    match pathOf ns route with
    | none => ns
    | some p => { ns with fib := insert p ns.fib } := by
  unfold mapperAddDelRoute pathOf mapped
  cases mapperGetByIfindex ns (oif route) with
  | none => cases isMulticast route <;> rfl
  | some j => cases isMulticast route <;> rfl

theorem addDelRoute_kept : (mapperAddDelRoute ns route del).routes = ns.routes ∧
    (mapperAddDelRoute ns route del).mappings = ns.mappings := by
  rw [addDelRoute_eq]
  cases pathOf ns route <;> exact ⟨rfl, rfl⟩

theorem mem_addDelRoute :
    p ∈ (mapperAddDelRoute ns route del).fib ↔ p ∈ ns.fib ∨ pathOf ns route = some p := by
  rw [addDelRoute_eq]
  cases h : pathOf ns route with
  | none => simp
  | some q => simp [Finset.mem_insert, or_comm, eq_comm]

theorem pathOf_congr (h : t.mappings = ns.mappings) : pathOf t = pathOf ns := by
  funext route
  rw [pathOf, pathOf, mapped, mapped, mapperGetByIfindex, mapperGetByIfindex, h]

theorem notifyCb_eq {flags : Nat} (h : flags = netnsFAdd ∨ flags = netnsFDel) :
    mapperNetnsNotifyCb ns route flags = mapperAddDelRoute ns route true := by
  cases h with
  | inl h =>
    rw [h]
    rfl
  | inr h =>
    rw [h]
    rfl

theorem foldl_addDelRoute (ifindex : UInt32) (is : List Nat) (ht : t.mappings = ns.mappings) :
    let u := is.foldl (fun t i => if oif (ns.routes.elt i) = ifindex
      then mapperAddDelRoute t (ns.routes.elt i) del else t) t
    u.routes = t.routes ∧ u.mappings = t.mappings ∧ ∀ p, p ∈ u.fib ↔ p ∈ t.fib ∨
      ∃ i ∈ is, oif (ns.routes.elt i) = ifindex ∧ pathOf ns (ns.routes.elt i) = some p := by
  induction is generalizing t with
  | nil => simp
  | cons i is ih =>
    dsimp only [List.foldl_cons]
    by_cases ho : oif (ns.routes.elt i) = ifindex
    · obtain ⟨hr, hm⟩ := addDelRoute_kept
      obtain ⟨ihr, ihm, ihf⟩ := ih (hm.trans ht)
      rw [if_pos ho]
      refine ⟨ihr.trans hr, ihm.trans hm, fun p => ?_⟩
      rw [ihf, mem_addDelRoute, pathOf_congr ht]
      simp only [List.mem_cons, exists_eq_or_imp, ho, true_and, or_assoc]
    · rw [if_neg ho]
      obtain ⟨ihr, ihm, ihf⟩ := ih ht
      refine ⟨ihr, ihm, fun p => ?_⟩
      rw [ihf]
      simp only [List.mem_cons, exists_eq_or_imp, ho, false_and, false_or]

/-- What identifies a route is kept when it is announced again, and with it the
path. -/
theorem pathOf_written {m : Nlmsg} {rtas : Rtas} {e : Route}
    (h : accepts routeMask nsRoutemap (header 12 m) rtas e = true) :
    pathOf ns (written nsRoutemap m rtas false e) = pathOf ns e := by
  have h0 : byteAt e.hdr 0 = byteAt (header 12 m) 0 := hdr_of_accepts h (by decide) (by decide)
  have h1 : byteAt e.hdr 1 = byteAt (header 12 m) 1 := hdr_of_accepts h (by decide) (by decide)
  have hm : rtnlEntryMatch e rtas (nsRoutemapPlain ++ [encapMapping]) ≠ 0 :=
    of_decide_eq_true (Bool.and_eq_true_iff.mp h).2
  have hget : ∀ f, f ≠ .encap → (∀ x ∈ nsRoutemapPlain, x.field = f → x.unique = true) →
      (rtnlEntrySet rtas false nsRoutemap e).1.get f = e.get f := by
    intro f hf hu
    have hrest : f ∉ [encapMapping].map Mapping.field := by simpa [encapMapping] using hf
    exact get_set_of_match (by decide) (by decide) hm hu hrest
  have hdst := hget .dst (by decide) (by decide)
  have hgateway := hget .gateway (by decide) (by decide)
  have hoif := hget .oif (by decide) (by decide)
  have hmulti : isMulticast (written nsRoutemap m rtas false e) = isMulticast e := by
    simp only [isMulticast, written, h0, h1, hdst]
    rfl
  have hpath : routePath (written nsRoutemap m rtas false e) = routePath e := by
    funext sw
    simp only [routePath, ip4Path, ip6Path, written, h0, h1, hdst, hgateway]
  have ho : oif (written nsRoutemap m rtas false e) = oif e := by
    simp only [oif, written, hoif]
  rw [pathOf, pathOf, hmulti, hpath, ho]

theorem spare_route_iff (hw : WF ns.routes) (m : Nlmsg) : Spare ns (.route m) ↔
    image (pathOf ns) ns.routes ⊆ image (pathOf ns) (nsRcvRoute ns.routes m).table := by
  have hc : Changed routeMask nsRoutemap rtmDelroute ns.routes m (nsRcvRoute ns.routes m) :=
    nsRcv_changed
  generalize nsRcvRoute ns.routes m = out at hc
  cases hc with
  | nothing hnone =>
    refine iff_of_true (fun _ rtas i ha hf => ?_) (fun p hp => hp)
    cases (hnone rtas ha).symm.trans hf
  | removed rtas i ha hd hf =>
    have hi : Live ns.routes i := (findLive_some hf).1
    rw [image_put]
    constructor
    · intro hs p hp
      exact ((mem_image_iff hi).mp hp).elim id (hs hd rtas i ha hf p)
    · intro hsub _ rtas' i' ha' hf' p hp
      obtain rfl := Option.some.inj (ha.symm.trans ha')
      obtain rfl := Option.some.inj (hf.symm.trans hf')
      exact hsub ⟨i, hi, hp⟩
  | added a hd =>
    exact iff_of_true (fun hd' => absurd hd' hd) fun p hp => (mem_image_insert hw).mpr (Or.inl hp)
  | updated rtas i hd hf =>
    obtain ⟨hi, ht⟩ := findLive_some hf
    rw [image_set hi (pathOf_written ht)]
    exact iff_of_true (fun hd' => absurd hd' hd) fun p hp => hp

theorem receiveRoute_installed (h : Installed ns) (m : Nlmsg) :
    Installed (receiveRoute ns m) ↔ Spare ns (.route m) := by
  rw [spare_route_iff h.routes]
  have hc : Changed routeMask nsRoutemap rtmDelroute ns.routes m (nsRcvRoute ns.routes m) :=
    nsRcv_changed
  obtain ⟨htable, hnote⟩ | ⟨i, flags, hnote, hn⟩ := noted_of_changed (g := pathOf ns) h.routes hc
  · have hr : receiveRoute ns m = ns := by
      simp only [receiveRoute, hnote, htable]
    rw [hr, htable]
    exact iff_of_true h fun p hp => hp
  · -- the callback adds a path, whatever the flags
    have hr : receiveRoute ns m = mapperAddDelRoute { ns with routes := (nsRcvRoute ns.routes m).table }
        ((nsRcvRoute ns.routes m).table.elt i) true := by
      simp only [receiveRoute, hnote]
      exact notifyCb_eq hn.kind
    obtain ⟨hroutes, hmaps⟩ := @addDelRoute_kept { ns with routes := (nsRcvRoute ns.routes m).table }
      ((nsRcvRoute ns.routes m).table.elt i) true
    rw [← hr] at hroutes hmaps
    have hstands : Stands (pathOf ns) (nsRcvRoute ns.routes m).table (receiveRoute ns m).fib ↔
        image (pathOf ns) ns.routes ⊆ image (pathOf ns) (nsRcvRoute ns.routes m).table := by
      refine stands_extended h.stands (fun p => ?_) hn.gained hn.own
      rw [hr, mem_addDelRoute]
      exact Iff.rfl
    rw [← hstands]
    constructor
    · intro ht
      have hs := ht.stands
      rwa [hroutes, pathOf_congr hmaps] at hs
    · intro hs
      refine ⟨?_, ?_, ?_, ?_⟩
      · rw [hroutes]
        exact hn.wf
      · rw [hmaps]
        exact h.mappings
      · rw [hmaps]
        exact h.unique
      · rw [hroutes, pathOf_congr hmaps]
        exact hs

theorem mapped_iff (h : Unique MapperMap.linuxIfindex ns.mappings) {x sw : UInt32} :
    mapped ns x = some sw ↔ ∃ j, Live ns.mappings j ∧ (ns.mappings.elt j).linuxIfindex = x ∧
      (ns.mappings.elt j).swIfIndex = sw := by
  unfold mapped mapperGetByIfindex
  rw [Option.map_eq_some_iff]
  constructor
  · rintro ⟨j, hf, hs⟩
    obtain ⟨hl, ht⟩ := findLive_some hf
    exact ⟨j, hl, (of_decide_eq_true ht).symm, hs⟩
  · rintro ⟨j, hl, hx, hs⟩
    cases hf : findLive (fun map => decide (x = map.linuxIfindex)) ns.mappings with
    | none =>
      have hno := of_decide_eq_false (findLive_none hf hl)
      exact absurd hx.symm hno
    | some k =>
      obtain ⟨hk, ht⟩ := findLive_some hf
      obtain rfl := h j k hl hk (hx.trans (of_decide_eq_true ht))
      exact ⟨j, rfl, hs⟩

theorem foreachRoute_spec (ns : MapperNs) (ifindex : UInt32) (del : Bool) :
    (foreachRoute ns ifindex del).routes = ns.routes ∧
      (foreachRoute ns ifindex del).mappings = ns.mappings ∧
      ∀ p, p ∈ (foreachRoute ns ifindex del).fib ↔ p ∈ ns.fib ∨ ∃ i, Live ns.routes i ∧
        oif (ns.routes.elt i) = ifindex ∧ pathOf ns (ns.routes.elt i) = some p := by
  obtain ⟨hr, hm, hf⟩ := @foldl_addDelRoute ns ns del ifindex (liveIndices ns.routes) rfl
  refine ⟨hr, hm, fun p => ?_⟩
  have hp := hf p
  simp only [mem_liveIndices] at hp
  exact hp

theorem pathOf_iff : pathOf ns route = some p ↔
    isMulticast route = false ∧ ∃ sw, mapped ns (oif route) = some sw ∧ routePath route sw = p := by
  unfold pathOf
  cases isMulticast route with
  | true => simp
  | false => simp [Option.map_eq_some_iff]

theorem mapped_put (h : Unique MapperMap.linuxIfindex ns.mappings) (hj : Live ns.mappings j)
    (ht : t.mappings = put ns.mappings j) {x sw : UInt32} : mapped t x = some sw ↔
      x ≠ (ns.mappings.elt j).linuxIfindex ∧ mapped ns x = some sw := by
  have hu : Unique MapperMap.linuxIfindex t.mappings := by
    rw [ht]
    exact h.put j
  rw [mapped_iff hu, ht, mapped_iff h]
  constructor
  · rintro ⟨k, hk, rfl, hs⟩
    obtain ⟨hk, hne⟩ := (live_put _ _ _).mp hk
    exact ⟨fun hx => hne (h k j hk hj hx), k, hk, rfl, hs⟩
  · rintro ⟨hx, k, hk, rfl, hs⟩
    refine ⟨k, (live_put _ _ _).mpr ⟨hk, ?_⟩, rfl, hs⟩
    rintro rfl
    exact hx rfl

theorem mapped_insert (h : Unique MapperMap.linuxIfindex ns.mappings) (hw : WF ns.mappings)
    {x sw : UInt32} (hno : ¬ Holds MapperMap.linuxIfindex ns.mappings x)
    (ht : t.mappings = KeyedPool.insert ns.mappings ⟨x, sw⟩) {y z : UInt32} :
    mapped t y = some z ↔ mapped ns y = some z ∨ x = y ∧ sw = z := by
  have hu : Unique MapperMap.linuxIfindex t.mappings := by
    rw [ht]
    exact h.insert hw hno
  rw [mapped_iff hu, ht, mapped_iff h]
  constructor
  · rintro ⟨k, hk, he, hs⟩
    cases (live_insert hw k).mp hk with
    | inl hk =>
      rw [elt_insert_old hk] at he hs
      exact Or.inl ⟨k, hk, he, hs⟩
    | inr hk =>
      rw [hk, elt_insert_fresh] at he hs
      exact Or.inr ⟨he, hs⟩
  · rintro (⟨k, hk, he, hs⟩ | ⟨he, hs⟩)
    · refine ⟨k, (live_insert hw k).mpr (Or.inl hk), ?_⟩
      rw [elt_insert_old hk]
      exact ⟨he, hs⟩
    · refine ⟨fresh ns.mappings, (live_insert hw _).mpr (Or.inr rfl), ?_⟩
      rw [elt_insert_fresh]
      exact ⟨he, hs⟩

theorem delmap_installed (h : Installed ns) (hj : Live ns.mappings j) :
    Installed (mapperDelmap ns j) ↔ ∀ i, Live ns.routes i →
      oif (ns.routes.elt i) = (ns.mappings.elt j).linuxIfindex →
        ∀ p, pathOf ns (ns.routes.elt i) = some p →
          ∃ k, Live ns.routes k ∧ oif (ns.routes.elt k) ≠ (ns.mappings.elt j).linuxIfindex ∧
            pathOf ns (ns.routes.elt k) = some p := by
  obtain ⟨hr, hm, hfib⟩ := foreachRoute_spec ns (ns.mappings.elt j).linuxIfindex true
  have hroutes : (mapperDelmap ns j).routes = ns.routes := hr
  have hmaps : (mapperDelmap ns j).mappings = put ns.mappings j := congrArg (put · j) hm
  -- nothing new is installed
  have hsame : ∀ p, p ∈ (mapperDelmap ns j).fib ↔ p ∈ image (pathOf ns) ns.routes := by
    intro p
    change p ∈ (foreachRoute ns (ns.mappings.elt j).linuxIfindex true).fib ↔ _
    rw [hfib, h.stands p]
    refine ⟨fun hp => hp.elim id ?_, Or.inl⟩
    rintro ⟨i, hi, _, hp⟩
    exact ⟨i, hi, hp⟩
  have hpath : ∀ r p, pathOf (mapperDelmap ns j) r = some p ↔
      oif r ≠ (ns.mappings.elt j).linuxIfindex ∧ pathOf ns r = some p := by
    intro r p
    simp only [pathOf_iff, mapped_put h.unique hj hmaps]
    constructor
    · rintro ⟨hmc, sw, ⟨hx, hsw⟩, hp⟩
      exact ⟨hx, hmc, sw, hsw, hp⟩
    · rintro ⟨hx, hmc, sw, hsw, hp⟩
      exact ⟨hmc, sw, ⟨hx, hsw⟩, hp⟩
  have himage : ∀ p, p ∈ image (pathOf (mapperDelmap ns j)) (mapperDelmap ns j).routes ↔
      ∃ k, Live ns.routes k ∧ oif (ns.routes.elt k) ≠ (ns.mappings.elt j).linuxIfindex ∧
        pathOf ns (ns.routes.elt k) = some p := by
    intro p
    rw [hroutes]
    change (∃ k, Live ns.routes k ∧ pathOf (mapperDelmap ns j) (ns.routes.elt k) = some p) ↔ _
    simp only [hpath]
  constructor
  · intro ht i hi _ p hp
    exact (himage p).mp ((ht.stands p).mp ((hsame p).mpr ⟨i, hi, hp⟩))
  · intro hs
    refine ⟨?_, ?_, ?_, fun p => ?_⟩
    · rw [hroutes]
      exact h.routes
    · rw [hmaps]
      exact wf_put h.mappings hj
    · rw [hmaps]
      exact h.unique.put j
    · rw [hsame, himage]
      constructor
      · rintro ⟨i, hi, hp⟩
        by_cases hx : oif (ns.routes.elt i) = (ns.mappings.elt j).linuxIfindex
        · exact hs i hi hx p hp
        · exact ⟨i, hi, hx, hp⟩
      · rintro ⟨k, hk, _, hp⟩
        exact ⟨k, hk, hp⟩

theorem newmap_installed (h : Installed ns) {x sw : UInt32}
    (hx : findLive (fun map => decide (x = map.linuxIfindex)) ns.mappings = none) :
    Installed (foreachRoute { ns with mappings := KeyedPool.insert ns.mappings ⟨x, sw⟩ } x false) := by
  have hno : ¬ Holds MapperMap.linuxIfindex ns.mappings x := by
    rintro ⟨j, hj, he⟩
    exact of_decide_eq_false (findLive_none hx hj) he.symm
  obtain ⟨hr, hm, hfib⟩ := foreachRoute_spec
    { ns with mappings := KeyedPool.insert ns.mappings ⟨x, sw⟩ } x false
  -- routes of other interfaces keep their paths
  have hpath : ∀ r p, pathOf { ns with mappings := KeyedPool.insert ns.mappings ⟨x, sw⟩ } r = some p ↔
      pathOf ns r = some p ∨ x = oif r ∧ isMulticast r = false ∧ routePath r sw = p := by
    intro r p
    have hmapped : ∀ z, mapped { ns with mappings := KeyedPool.insert ns.mappings ⟨x, sw⟩ } (oif r) =
        some z ↔ mapped ns (oif r) = some z ∨ x = oif r ∧ sw = z :=
      fun z => mapped_insert h.unique h.mappings hno rfl
    simp only [pathOf_iff, hmapped]
    constructor
    · rintro ⟨hmc, z, hz | ⟨he, rfl⟩, hp⟩
      · exact Or.inl ⟨hmc, z, hz, hp⟩
      · exact Or.inr ⟨he, hmc, hp⟩
    · rintro (⟨hmc, z, hz, hp⟩ | ⟨he, hmc, hp⟩)
      · exact ⟨hmc, z, Or.inl hz, hp⟩
      · exact ⟨hmc, sw, Or.inr ⟨he, rfl⟩, hp⟩
  refine ⟨?_, ?_, ?_, fun p => ?_⟩
  · rw [hr]
    exact h.routes
  · rw [hm]
    exact wf_insert h.mappings
  · rw [hm]
    exact h.unique.insert h.mappings hno
  · rw [hfib, hr, pathOf_congr hm, h.stands p]
    constructor
    · rintro (⟨i, hi, hp⟩ | ⟨i, hi, _, hp⟩)
      · exact ⟨i, hi, (hpath _ p).mpr (Or.inl hp)⟩
      · exact ⟨i, hi, hp⟩
    · rintro ⟨i, hi, hp⟩
      cases (hpath _ p).mp hp with
      | inl hold => exact Or.inl ⟨i, hi, hold⟩
      | inr hnew => exact Or.inr ⟨i, hi, hnew.1.symm, hp⟩

theorem addDel_installed (h : Installed ns) (x sw : UInt32) (del : Bool) :
    Installed (mapperAddDel ns x sw del).1 ↔ Spare ns (.addDel x sw del) := by
  unfold mapperAddDel mapperGetmap
  cases hf : findLive (fun map => decide (x = map.linuxIfindex)) ns.mappings with
  | none =>
    have hno : mapped ns x = none := by
      unfold mapped mapperGetByIfindex
      rw [hf]
      rfl
    have hs : Spare ns (.addDel x sw del) := fun _ hm => by
      rw [hno] at hm
      cases hm
    cases del with
    | true => exact iff_of_true h hs
    | false => exact iff_of_true (newmap_installed h hf) hs
  | some j =>
    obtain ⟨hj, ht⟩ := findLive_some hf
    have hx : (ns.mappings.elt j).linuxIfindex = x := (of_decide_eq_true ht).symm
    have hm : mapped ns x = some (ns.mappings.elt j).swIfIndex := by
      unfold mapped mapperGetByIfindex
      rw [hf]
      rfl
    by_cases hsw : sw = (ns.mappings.elt j).swIfIndex
    · simp only [if_neg (not_not.mpr hsw)]
      cases del with
      | false => exact iff_of_true h fun hd => Bool.noConfusion hd
      | true =>
        have hd := delmap_installed h hj
        rw [hx] at hd
        exact hd.trans ⟨fun hs _ _ => hs, fun hs => hs rfl (hm.trans (congrArg some hsw.symm))⟩
    · simp only [if_pos hsw]
      refine iff_of_true h fun _ hm' => ?_
      exact absurd (Option.some.inj (hm'.symm.trans hm)) hsw

theorem step_installed (h : Installed ns) {a : Act} (ht : step ns a = some t) :
    Installed t ↔ Spare ns a := by
  cases a with
  | route m =>
    rw [step] at ht
    split at ht
    · obtain rfl := Option.some.inj ht
      exact receiveRoute_installed h m
    · cases ht
  | addDel x sw del =>
    obtain rfl := Option.some.inj ht
    exact addDel_installed h x sw del

theorem start_installed {routes : Pool Route} (h : WF routes) : Installed (start routes) := by
  have hno : ∀ x, mapped (start routes) x = none := by
    intro x
    cases hm : mapped (start routes) x with
    | none => rfl
    | some sw =>
      obtain ⟨j, hj, _⟩ := (mapped_iff (unique_empty _)).mp hm
      exact absurd hj.1 (Nat.not_lt_zero j)
  refine ⟨h, wf_empty _, unique_empty _, fun p => iff_of_false (Finset.notMem_empty p) ?_⟩
  rintro ⟨i, _, hp⟩
  unfold pathOf at hp
  rw [hno] at hp
  split at hp <;> cases hp

/-- As long as no deletion takes a path that is needed no more, the paths are
those of the live routes over mapped interfaces; the first such deletion leaves
a path behind. -/
theorem run_installed {routes : Pool Route} {as : List Act} (hw : WF routes)
    (hc : Meets step Spare (start routes) as) (hr : run step (start routes) as = some ns) :
    Installed ns ∧ ∀ a t, step ns a = some t → (Installed t ↔ Spare ns a) := by
  have h : Installed ns := invariant_of_meets (fun s a t h hc ht => (step_installed h ht).mpr hc)
    (start_installed hw) hc hr
  exact ⟨h, fun a t ht => step_installed h ht⟩

def noRoutes : Pool Route := empty zeroEntry

def routeThenMap : List Act := [.route plainRoute, .addDel 3 7 false]

theorem run_installed_sample :
    ∃ ns, run step (start noRoutes) routeThenMap = some ns ∧ Installed ns ∧
      ns.fib = {⟨.ip4, 8, [10, 0, 0, 0], 0, [0, 0, 0, 0], 7, []⟩} := by
  have hc : Meets step Spare (start noRoutes) routeThenMap := by
    refine ⟨fun hd => absurd hd (by decide), fun _ _ => ⟨fun hd => ?_, fun _ _ => trivial⟩⟩
    exact Bool.noConfusion hd
  exact ⟨_, rfl, (run_installed (wf_empty _) hc rfl).1, by decide +kernel⟩

/-- The route is deleted, but its path stays. -/
theorem deleted_route_kept :
    ∃ ns, run step (start noRoutes) (routeThenMap ++ [.route { plainRoute with nlmsgType := rtmDelroute }]) = some ns ∧
      liveIndices ns.routes = [] ∧ ns.fib = {⟨.ip4, 8, [10, 0, 0, 0], 0, [0, 0, 0, 0], 7, []⟩} :=
  ⟨_, rfl, by decide +kernel, by decide +kernel⟩

end Vppsb.MapperRoutes
