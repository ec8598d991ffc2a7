import Vppsb.NetnsKeys

namespace Vppsb.NetnsUnique

open Vppsb.StepRun Vppsb.PoolStore Vppsb.KeyedPool Vppsb.NetnsEntry Vppsb.NetnsTables
  Vppsb.NetnsReceive Vppsb.NetnsKeys

def IsRoute (m : Nlmsg) : Prop := m.nlmsgType = rtmNewroute ∨ m.nlmsgType = rtmDelroute
def IsLink (m : Nlmsg) : Prop := m.nlmsgType = rtmNewlink ∨ m.nlmsgType = rtmDellink
def IsAddr (m : Nlmsg) : Prop := m.nlmsgType = rtmNewaddr ∨ m.nlmsgType = rtmDeladdr
def IsNeigh (m : Nlmsg) : Prop := m.nlmsgType = rtmNewneigh ∨ m.nlmsgType = rtmDelneigh

instance (m : Nlmsg) : Decidable (IsRoute m) := inferInstanceAs (Decidable (_ ∨ _))
instance (m : Nlmsg) : Decidable (IsLink m) := inferInstanceAs (Decidable (_ ∨ _))
instance (m : Nlmsg) : Decidable (IsAddr m) := inferInstanceAs (Decidable (_ ∨ _))
instance (m : Nlmsg) : Decidable (IsNeigh m) := inferInstanceAs (Decidable (_ ∨ _))

/-- In each table no two live entries have the same key. -/
structure Keyed (ns : Netns) : Prop where
  links : WF ns.links ∧ Unique linkKey ns.links
  routes : WF ns.routes ∧ Unique routeKey ns.routes
  addresses : WF ns.addresses ∧ Unique addrKey ns.addresses
  neighbors : WF ns.neighbors ∧ Unique neighKey ns.neighbors

theorem keyed_empty : Keyed emptyNetns :=
  ⟨⟨wf_empty _, unique_empty _⟩, ⟨wf_empty _, unique_empty _⟩, ⟨wf_empty _, unique_empty _⟩,
    ⟨wf_empty _, unique_empty _⟩⟩

/-- The attributes of a message all fit, and those of a new route are kept. -/
structure Regular (ns : Netns) (m : Nlmsg) : Prop where
  route : IsRoute m → ∀ rtas, attributes 12 m = some rtas → Fits RouteField.size nsRoutemap rtas
  addr : IsAddr m → ∀ rtas, attributes 8 m = some rtas → Fits AddrField.size nsAddrmap rtas
  neigh : IsNeigh m → ∀ rtas, attributes 12 m = some rtas → Fits NeighField.size nsNeighmap rtas
  encap : m.nlmsgType = rtmNewroute → ∀ rtas, attributes 12 m = some rtas →
    EncapKept ns.routes m rtas

/-- What a namespace does on a message: the table of its type handles it by its
key, and the other three stay as they are. A message that is refused, or of
another type, changes nothing. -/
inductive Received (ns : Netns) (m : Nlmsg) : Netns × Option Note → Prop
  | route (rtas : Rtas) (out : Outcome Route) (ht : IsRoute m)
      (ha : attributes 12 m = some rtas)
      (h : Handled routeKey (messageKey RouteField.size routeMask nsRoutemap (header 12 m) rtas)
        ns.routes (decide (m.nlmsgType = rtmDelroute)) out) :
    Received ns m ({ ns with routes := out.table }, noteOf .route out.note)
  | link (rtas : Rtas) (out : Outcome Link) (ht : IsLink m) (ha : attributes 16 m = some rtas)
      (h : Handled linkKey (ifiIndex (header 16 m)) ns.links
        (decide (m.nlmsgType = rtmDellink)) out) :
    Received ns m ({ ns with links := out.table }, noteOf .link out.note)
  | addr (rtas : Rtas) (out : Outcome Addr) (ht : IsAddr m) (ha : attributes 8 m = some rtas)
      (h : Handled addrKey (messageKey AddrField.size addrMask nsAddrmap (header 8 m) rtas)
        ns.addresses (decide (m.nlmsgType = rtmDeladdr)) out) :
    Received ns m ({ ns with addresses := out.table }, noteOf .addr out.note)
  | neigh (rtas : Rtas) (out : Outcome Neigh) (ht : IsNeigh m) (ha : attributes 12 m = some rtas)
      (h : Handled neighKey (messageKey NeighField.size neighMask nsNeighmap (header 12 m) rtas)
        ns.neighbors (decide (m.nlmsgType = rtmDelneigh)) out) :
    Received ns m ({ ns with neighbors := out.table }, noteOf .neigh out.note)
  | refused (h : (IsRoute m ∨ IsNeigh m → attributes 12 m = none) ∧
      (IsLink m → attributes 16 m = none) ∧ (IsAddr m → attributes 8 m = none)) :
    Received ns m (ns, none)

theorem recv_route {m : Nlmsg} (ns : Netns) (h : IsRoute m) :
    nsRecvRtnl ns m = ({ ns with routes := (nsRcvRoute ns.routes m).table },
      noteOf .route (nsRcvRoute ns.routes m).note) := if_pos h

theorem recv_link {m : Nlmsg} (ns : Netns) (h : IsLink m) :
    nsRecvRtnl ns m = ({ ns with links := (nsRcvLink ns.links m).table },
      noteOf .link (nsRcvLink ns.links m).note) := by
  have hr : ¬ IsRoute m := by
    simp only [IsLink, IsRoute, rtmNewlink, rtmDellink, rtmNewroute, rtmDelroute] at h ⊢
    omega
  exact (if_neg hr).trans (if_pos h)

theorem recv_addr {m : Nlmsg} (ns : Netns) (h : IsAddr m) :
    nsRecvRtnl ns m = ({ ns with addresses := (nsRcvAddr ns.addresses m).table },
      noteOf .addr (nsRcvAddr ns.addresses m).note) := by
  have hr : ¬ IsRoute m ∧ ¬ IsLink m := by
    simp only [IsAddr, IsLink, IsRoute, rtmNewaddr, rtmDeladdr, rtmNewlink, rtmDellink,
      rtmNewroute, rtmDelroute] at h ⊢
    omega
  exact (if_neg hr.1).trans ((if_neg hr.2).trans (if_pos h))

theorem recv_neigh {m : Nlmsg} (ns : Netns) (h : IsNeigh m) :
    nsRecvRtnl ns m = ({ ns with neighbors := (nsRcvNeigh ns.neighbors m).table },
      noteOf .neigh (nsRcvNeigh ns.neighbors m).note) := by
  have hr : ¬ IsRoute m ∧ ¬ IsLink m ∧ ¬ IsAddr m := by
    simp only [IsNeigh, IsAddr, IsLink, IsRoute, rtmNewneigh, rtmDelneigh, rtmNewaddr, rtmDeladdr,
      rtmNewlink, rtmDellink, rtmNewroute, rtmDelroute] at h ⊢
    omega
  exact (if_neg hr.1).trans ((if_neg hr.2.1).trans ((if_neg hr.2.2).trans (if_pos h)))

theorem recv_other {m : Nlmsg} (ns : Netns)
    (h : ¬ IsRoute m ∧ ¬ IsLink m ∧ ¬ IsAddr m ∧ ¬ IsNeigh m) : nsRecvRtnl ns m = (ns, none) :=
  (if_neg h.1).trans ((if_neg h.2.1).trans ((if_neg h.2.2.1).trans (if_neg h.2.2.2)))

theorem kinds_disjoint {m : Nlmsg} :
    (IsRoute m → ¬ IsLink m ∧ ¬ IsAddr m ∧ ¬ IsNeigh m) ∧
      (IsLink m → ¬ IsRoute m ∧ ¬ IsAddr m ∧ ¬ IsNeigh m) ∧
      (IsAddr m → ¬ IsRoute m ∧ ¬ IsLink m ∧ ¬ IsNeigh m) ∧
      (IsNeigh m → ¬ IsRoute m ∧ ¬ IsLink m ∧ ¬ IsAddr m) := by
  simp only [IsNeigh, IsAddr, IsLink, IsRoute, rtmNewneigh, rtmDelneigh, rtmNewaddr, rtmDeladdr,
    rtmNewlink, rtmDellink, rtmNewroute, rtmDelroute]
  omega

theorem received {ns : Netns} {m : Nlmsg} (hm : Regular ns m) :
    Received ns m (nsRecvRtnl ns m) := by
  obtain ⟨dr, dl, da, dn⟩ := @kinds_disjoint m
  by_cases hr : IsRoute m
  · rw [recv_route ns hr]
    cases ha : attributes 12 m with
    | none =>
      rw [nsRcvRoute, nsRcv_refused ha]
      exact .refused ⟨fun _ => ha, fun h => absurd h (dr hr).1, fun h => absurd h (dr hr).2.1⟩
    | some rtas =>
      apply Received.route rtas _ hr ha
      apply nsRcvRoute_handled ha (hm.route hr rtas ha)
      exact fun hd => hm.encap (hr.resolve_right hd) rtas ha
  by_cases hl : IsLink m
  · rw [recv_link ns hl]
    cases ha : attributes 16 m with
    | none =>
      rw [nsRcvLink, nsRcv_refused ha]
      exact .refused ⟨fun h => absurd h (not_or.mpr ⟨hr, (dl hl).2.2⟩), fun _ => ha,
        fun h => absurd h (dl hl).2.1⟩
    | some rtas => exact .link rtas _ hl ha (nsRcvLink_handled ha)
  by_cases hd : IsAddr m
  · rw [recv_addr ns hd]
    cases ha : attributes 8 m with
    | none =>
      rw [nsRcvAddr, nsRcv_refused ha]
      exact .refused ⟨fun h => absurd h (not_or.mpr ⟨hr, (da hd).2.2⟩), fun h => absurd h hl,
        fun _ => ha⟩
    | some rtas =>
      apply Received.addr rtas _ hd ha
      exact nsRcv_handled_plain (by decide) (by decide) ha (hm.addr hd rtas ha)
  by_cases hn : IsNeigh m
  · rw [recv_neigh ns hn]
    cases ha : attributes 12 m with
    | none =>
      rw [nsRcvNeigh, nsRcv_refused ha]
      exact .refused ⟨fun _ => ha, fun h => absurd h hl, fun h => absurd h hd⟩
    | some rtas =>
      apply Received.neigh rtas _ hn ha
      exact nsRcv_handled_plain (by decide) (by decide) ha (hm.neigh hn rtas ha)
  · rw [recv_other ns ⟨hr, hl, hd, hn⟩]
    exact .refused ⟨fun h => absurd h (not_or.mpr ⟨hr, hn⟩), fun h => absurd h hl,
      fun h => absurd h hd⟩

theorem Received.keyed {ns : Netns} {m : Nlmsg} {t : Netns × Option Note} (h : Received ns m t)
    (hk : Keyed ns) : Keyed t.1 := by
  obtain ⟨hl, hr, ha, hn⟩ := hk
  cases h with
  | route rtas out ht _ h => exact ⟨hl, ⟨h.wf hr.1, h.unique hr.1 hr.2⟩, ha, hn⟩
  | link rtas out ht _ h => exact ⟨⟨h.wf hl.1, h.unique hl.1 hl.2⟩, hr, ha, hn⟩
  | addr rtas out ht _ h => exact ⟨hl, hr, ⟨h.wf ha.1, h.unique ha.1 ha.2⟩, hn⟩
  | neigh rtas out ht _ h => exact ⟨hl, hr, ha, ⟨h.wf hn.1, h.unique hn.1 hn.2⟩⟩
  | refused => exact ⟨hl, hr, ha, hn⟩

def receive (ns : Netns) (m : Nlmsg) : Option Netns := some (nsRecvRtnl ns m).1

/-- The handles whose callback is called because of a message, each with its
one notification. -/
def callbacks (handles : Pool NetnsHandle) (index : Nat) (note : Option Note) : List Nat :=
  if note.isSome then netnsNotify handles index else []

theorem count_callbacks (handles : Pool NetnsHandle) (index h : Nat) (note : Option Note) :
    (callbacks handles index note).count h =
      if note.isSome ∧ Live handles h ∧ (handles.elt h).netnsIndex = index ∧
        (handles.elt h).notify = true then 1 else 0 := by
  cases note with
  | none => rfl
  | some note =>
    rw [callbacks, if_pos Option.isSome_some, count_netnsNotify]
    simp

theorem run_keyed {ms : List Nlmsg} {m : Nlmsg} {ns : Netns}
    (hc : Meets receive Regular emptyNetns (ms ++ [m])) (hr : run receive emptyNetns ms = some ns) :
    Keyed ns ∧ Keyed (nsRecvRtnl ns m).1 ∧ Received ns m (nsRecvRtnl ns m) ∧
      ∀ handles index h, (callbacks handles index (nsRecvRtnl ns m).2).count h =
        if (nsRecvRtnl ns m).2.isSome ∧ Live handles h ∧ (handles.elt h).netnsIndex = index ∧
          (handles.elt h).notify = true then 1 else 0 := by
  obtain ⟨hms, hm⟩ := meets_append.mp hc
  have hk : Keyed ns := by
    refine invariant_of_meets (fun s e t hs he ht => ?_) keyed_empty hms hr
    obtain rfl := Option.some.inj ht
    exact (received he).keyed hs
  have hg := received (hm ns hr).1
  exact ⟨hk, hg.keyed hk, hg, fun handles index h => count_callbacks handles index h _⟩

/-- The attribute whose header stands at an offset of the bytes behind the
message header. -/
def attributeAt (bytes : List UInt8) (offset : Nat) : Rtattr :=
  ⟨(bytes.getD offset 0).toNat + 256 * (bytes.getD (offset + 1) 0).toNat,
    fun i => bytes.getD (offset + 4 + i) 0⟩

def messageOf (type : Nat) (bytes : List UInt8) (offsets : List (Nat × Nat)) : Nlmsg :=
  ⟨16 + bytes.length, type, fun i => bytes.getD i 0,
    some (fun t => (offsets.lookup t).map (attributeAt bytes))⟩

def plainRoute : Nlmsg :=
  messageOf rtmNewroute [2, 8, 0, 0, 254, 4, 0, 1, 0, 0, 0, 0, 8, 0, 1, 0, 10, 0, 0, 0,
    8, 0, 4, 0, 3, 0, 0, 0] [(1, 12), (4, 20)]

theorem regular_plainRoute (ns : Netns) : Regular ns plainRoute := by
  constructor
  · intro _ rtas ha
    obtain rfl := Option.some.inj ha
    show ∀ x ∈ nsRoutemap, _
    decide
  · intro h
    exact absurd h (by decide)
  · intro h
    exact absurd h (by decide)
  · intro _ rtas ha rta hr
    obtain rfl := Option.some.inj ha
    cases hr

theorem run_keyed_sample :
    ∃ ns, run receive emptyNetns [plainRoute] = some ns ∧ Keyed ns ∧
      Received ns plainRoute (nsRecvRtnl ns plainRoute) := by
  have hc : Meets receive Regular emptyNetns ([plainRoute] ++ [plainRoute]) :=
    ⟨regular_plainRoute _, fun t _ => ⟨regular_plainRoute t, fun _ _ => trivial⟩⟩
  have h := run_keyed hc rfl
  exact ⟨_, rfl, h.1, h.2.2.1⟩

def encapRoute : Nlmsg :=
  messageOf rtmNewroute [2, 8, 0, 0, 254, 4, 0, 1, 0, 0, 0, 0, 8, 0, 1, 0, 10, 0, 0, 0,
    8, 0, 4, 0, 3, 0, 0, 0, 12, 0, 22, 0, 8, 0, 1, 0, 0, 6, 65, 0] [(1, 12), (4, 20), (22, 28)]

/-- A route with a label that is announced twice is in the table twice. -/
theorem encap_duplicated :
    (∀ rtas, attributes 12 encapRoute = some rtas → Fits RouteField.size nsRoutemap rtas) ∧
      ∃ ns, run receive emptyNetns [encapRoute, encapRoute] = some ns ∧
        Live ns.routes 0 ∧ Live ns.routes 1 ∧
        routeKey (ns.routes.elt 0) = routeKey (ns.routes.elt 1) := by
  constructor
  · intro rtas ha
    obtain rfl := Option.some.inj ha
    show ∀ x ∈ nsRoutemap, _
    decide
  · exact ⟨_, rfl, by decide +kernel, by decide +kernel, by decide +kernel⟩

end Vppsb.NetnsUnique
