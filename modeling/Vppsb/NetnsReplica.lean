import Vppsb.NetnsUnique

namespace Vppsb.NetnsReplica

open Vppsb.StepRun Vppsb.PoolStore Vppsb.KeyedPool Vppsb.NetnsEntry Vppsb.NetnsTables
open Vppsb.NetnsReceive Vppsb.NetnsKeys Vppsb.NetnsUnique

/-- The notifications that `netns_callme` gives to a handle. -/
def netnsCallme (h : NetnsHandle) (ns : Netns) (del : Bool) : List Note :=
  let flags := if del then netnsFDel else netnsFAdd
  if h.notify then
    (liveIndices ns.neighbors).map (fun i => ⟨.neigh, i, flags⟩) ++
      (liveIndices ns.routes).map (fun i => ⟨.route, i, flags⟩) ++
      (liveIndices ns.addresses).map (fun i => ⟨.addr, i, flags⟩) ++
      (liveIndices ns.links).map (fun i => ⟨.link, i, flags⟩)
  else []

/-- What a subscriber that keeps the objects by their keys holds. -/
structure Replica where
  links : List UInt8 → Option Link
  routes : Key → Option Route
  addresses : Key → Option Addr
  neighbors : Key → Option Neigh

def blank : Replica := ⟨fun _ => none, fun _ => none, fun _ => none, fun _ => none⟩

section Table

variable {α κ : Type} [DecidableEq κ]

def tell (key : α → κ) (r : κ → Option α) (a : α) (flags : Nat) : κ → Option α :=
  Function.update r (key a) (if flags = netnsFDel then none else some a)

def tellAll (key : α → κ) (p : Pool α) (flags : Nat) (r : κ → Option α) (l : List Nat) : κ → Option α :=
  l.foldl (fun r i => tell key r (p.elt i) flags) r

end Table

def Replica.told (r : Replica) (ns : Netns) (x : Note) : Replica :=
  match x.type with
  | .link => { r with links := tell linkKey r.links (ns.links.elt x.slot) x.flags }
  | .route => { r with routes := tell routeKey r.routes (ns.routes.elt x.slot) x.flags }
  | .addr => { r with addresses := tell addrKey r.addresses (ns.addresses.elt x.slot) x.flags }
  | .neigh => { r with neighbors := tell neighKey r.neighbors (ns.neighbors.elt x.slot) x.flags }

structure Watch where
  ns : Netns
  replica : Replica

inductive Event where
  | message (m : Nlmsg)
  | callme (del : Bool)

/-- The subscriber with the handle `h` hears of a message, or asks to be called. -/
def follow (h : NetnsHandle) (w : Watch) : Event → Option Watch
  | .message m =>
    let t := nsRecvRtnl w.ns m
    let notes := if h.notify then t.2.toList else []
    some ⟨t.1, notes.foldl (fun r x => r.told t.1 x) w.replica⟩
  | .callme del => some ⟨w.ns, (netnsCallme h w.ns del).foldl (fun r x => r.told w.ns x) w.replica⟩

section Table

variable {α κ : Type} [DecidableEq κ] {key : α → κ} {p : Pool α} {r : κ → Option α} {k : κ}
variable {del : Bool} {out : Outcome α} {l : List Nat}

def Sure (key : α → κ) (p : Pool α) (r : κ → Option α) : Prop :=
  ∀ k a, r k = some a → ∃ i, Live p i ∧ p.elt i = a ∧ key a = k

def Full (key : α → κ) (p : Pool α) (r : κ → Option α) : Prop :=
  ∀ i, Live p i → r (key (p.elt i)) = some (p.elt i)

def after (key : α → κ) (r : κ → Option α) (out : Outcome α) : κ → Option α :=
  match out.note with
  | none => r
  | some x => tell key r (out.table.elt x.1) x.2

theorem after_some (t : Pool α) (i flags : Nat) (ret : Int) :
    after key r ⟨t, some (i, flags), ret⟩ = tell key r (t.elt i) flags := rfl

theorem tell_add (a : α) : tell key r a netnsFAdd = Function.update r (key a) (some a) := rfl

theorem tell_del (a : α) : tell key r a netnsFDel = Function.update r (key a) none := rfl

theorem Sure.update (h : Sure key p r) {q : Pool α} {i : Nat} {a : α} (hi : Live q i)
    (ha : q.elt i = a) (hold : ∀ j, Live p j → key (p.elt j) ≠ key a → Live q j ∧ q.elt j = p.elt j) :
    Sure key q (Function.update r (key a) (some a)) := by
  intro k b hb
  by_cases hk : k = key a
  · rw [hk, Function.update_self] at hb
    obtain rfl := Option.some.inj hb
    exact ⟨i, hi, ha, hk.symm⟩
  · rw [Function.update_of_ne hk] at hb
    obtain ⟨j, hj, rfl, rfl⟩ := h k b hb
    obtain ⟨hl, he⟩ := hold j hj hk
    exact ⟨j, hl, he, rfl⟩

theorem Full.update (h : Full key p r) {q : Pool α} {i : Nat} (hu : Unique key q) (hi : Live q i)
    (hold : ∀ j, Live q j → j ≠ i → Live p j ∧ p.elt j = q.elt j) :
    Full key q (Function.update r (key (q.elt i)) (some (q.elt i))) := by
  intro j hj
  by_cases he : j = i
  · rw [he, Function.update_self]
  · have hne : key (q.elt j) ≠ key (q.elt i) := fun hk => he (hu j i hj hi hk)
    obtain ⟨hl, hv⟩ := hold j hj he
    rw [Function.update_of_ne hne, ← hv]
    exact h j hl

theorem sure_after (h : Sure key p r) (hh : Handled key k p del out) (hp : WF p) :
    Sure key out.table (after key r out) := by
  cases hh with
  | update i a hi hk ha =>
    have he : (set p i a).elt i = a := elt_set_self
    rw [after_some, he, tell_add]
    refine h.update (i := i) hi he fun j hj hne => ⟨hj, elt_set_of_ne fun hji => hne ?_⟩
    rw [hji, hk, ha]
  | add a hk ha =>
    have he : (insert p a).elt (fresh p) = a := elt_insert_fresh
    rw [after_some, he, tell_add]
    refine h.update (i := fresh p) ((live_insert hp _).mpr (Or.inr rfl)) he fun j hj _ => ?_
    exact ⟨(live_insert hp j).mpr (Or.inl hj), elt_insert_old hj⟩
  | remove i hi hk =>
    rw [after_some, elt_put, tell_del]
    intro l b hb
    by_cases hl : l = key (p.elt i)
    · rw [hl, Function.update_self] at hb
      cases hb
    · rw [Function.update_of_ne hl] at hb
      obtain ⟨j, hj, rfl, rfl⟩ := h l b hb
      refine ⟨j, (live_put _ _ _).mpr ⟨hj, fun hji => hl ?_⟩, rfl, rfl⟩
      rw [hji]
  | absent hk => exact h

theorem full_after (h : Full key p r) (hh : Handled key k p del out) (hp : WF p) (hu : Unique key p) :
    Full key out.table (after key r out) := by
  have hu' := hh.unique hp hu
  cases hh with
  | update i a hi hk ha =>
    rw [after_some, tell_add]
    exact h.update hu' hi fun j hj hne => ⟨hj, (elt_set_of_ne hne).symm⟩
  | add a hk ha =>
    rw [after_some, tell_add]
    refine h.update hu' ((live_insert hp _).mpr (Or.inr rfl)) fun j hj hne => ?_
    have hold := ((live_insert hp j).mp hj).resolve_right hne
    exact ⟨hold, (elt_insert_old hold).symm⟩
  | remove i hi hk =>
    rw [after_some, elt_put, tell_del]
    intro j hj
    obtain ⟨hl, hne⟩ := (live_put _ _ _).mp hj
    rw [elt_put, Function.update_of_ne fun hkey => hne (hu j i hl hi hkey)]
    exact h j hl
  | absent hk => exact h

theorem tellAll_add (hl : ∀ i ∈ l, Live p i) (hu : Unique key p) (h : Sure key p r) :
    Sure key p (tellAll key p netnsFAdd r l) ∧
      (∀ i ∈ l, tellAll key p netnsFAdd r l (key (p.elt i)) = some (p.elt i)) ∧
      ∀ i, Live p i → r (key (p.elt i)) = some (p.elt i) →
        tellAll key p netnsFAdd r l (key (p.elt i)) = some (p.elt i) := by
  induction l generalizing r with
  | nil => exact ⟨h, fun i hi => absurd hi List.not_mem_nil, fun _ _ hr => hr⟩
  | cons i l ih =>
    have hi := hl i List.mem_cons_self
    have hs : Sure key p (tell key r (p.elt i) netnsFAdd) :=
      h.update hi rfl fun j hj _ => ⟨hj, rfl⟩
    obtain ⟨hsure, hin, hkeep⟩ := @ih (tell key r (p.elt i) netnsFAdd)
      (fun j hj => hl j (List.mem_cons_of_mem i hj)) hs
    refine ⟨hsure, fun j hj => ?_, fun j hj hr => hkeep j hj ?_⟩
    · obtain rfl | hj := List.mem_cons.mp hj
      · exact hkeep j hi (by rw [tell_add, Function.update_self])
      · exact hin j hj
    · rw [tell_add]
      by_cases hk : key (p.elt j) = key (p.elt i)
      · rw [hk, Function.update_self, hu j i hj hi hk]
      · rwa [Function.update_of_ne hk]

theorem tellAll_del (k : κ) : tellAll key p netnsFDel r l k =
    if ∃ i ∈ l, key (p.elt i) = k then none else r k := by
  induction l generalizing r with
  | nil => simp [tellAll]
  | cons i l ih =>
    have hr := @ih (tell key r (p.elt i) netnsFDel)
    rw [tellAll, List.foldl_cons]
    refine hr.trans ?_
    by_cases hk : k = key (p.elt i)
    · rw [tell_del, hk, Function.update_self, ite_self, if_pos ⟨i, List.mem_cons_self, rfl⟩]
    · rw [tell_del, Function.update_of_ne hk]
      refine if_congr ?_ rfl rfl
      simp only [List.mem_cons, exists_eq_or_imp, Ne.symm hk, false_or]

theorem full_callme (hu : Unique key p) (h : Sure key p r) :
    Full key p (tellAll key p netnsFAdd r (liveIndices p)) :=
  fun i hi => (tellAll_add (fun i hi => (mem_liveIndices p i).mp hi) hu h).2.1 i
    ((mem_liveIndices p i).mpr hi)

theorem sure_callme (hu : Unique key p) (h : Sure key p r) :
    Sure key p (tellAll key p netnsFAdd r (liveIndices p)) :=
  (tellAll_add (fun i hi => (mem_liveIndices p i).mp hi) hu h).1

theorem blank_callme (h : Sure key p r) :
    tellAll key p netnsFDel r (liveIndices p) = fun _ => none := by
  funext k
  rw [tellAll_del]
  split
  · rfl
  · rename_i hno
    cases hr : r k with
    | none => rfl
    | some a =>
      obtain ⟨i, hi, rfl, hk⟩ := h k a hr
      exact absurd ⟨i, (mem_liveIndices p i).mpr hi, hk⟩ hno

end Table

/-- What is kept of each type is the live object with its key. -/
structure Right (w : Watch) : Prop where
  keyed : Keyed w.ns
  links : Sure linkKey w.ns.links w.replica.links
  routes : Sure routeKey w.ns.routes w.replica.routes
  addresses : Sure addrKey w.ns.addresses w.replica.addresses
  neighbors : Sure neighKey w.ns.neighbors w.replica.neighbors

structure Complete (w : Watch) : Prop where
  links : Full linkKey w.ns.links w.replica.links
  routes : Full routeKey w.ns.routes w.replica.routes
  addresses : Full addrKey w.ns.addresses w.replica.addresses
  neighbors : Full neighKey w.ns.neighbors w.replica.neighbors

def Plain (w : Watch) : Event → Prop
  | .message m => Regular w.ns m
  | .callme _ => True

variable {w w' : Watch} {h : NetnsHandle}

section Message

variable {ns : Netns} {m : Nlmsg} {r : Replica} {t : Netns × Option Note}

def hear (t : Netns × Option Note) (r : Replica) : Replica :=
  t.2.toList.foldl (fun r x => r.told t.1 x) r

theorem hear_route (out : Outcome Route) :
    hear ({ ns with routes := out.table }, noteOf .route out.note) r =
      { r with routes := after routeKey r.routes out } := by
  obtain ⟨table, note, ret⟩ := out
  cases note <;> rfl

theorem hear_link (out : Outcome Link) :
    hear ({ ns with links := out.table }, noteOf .link out.note) r =
      { r with links := after linkKey r.links out } := by
  obtain ⟨table, note, ret⟩ := out
  cases note <;> rfl

theorem hear_addr (out : Outcome Addr) :
    hear ({ ns with addresses := out.table }, noteOf .addr out.note) r =
      { r with addresses := after addrKey r.addresses out } := by
  obtain ⟨table, note, ret⟩ := out
  cases note <;> rfl

theorem hear_neigh (out : Outcome Neigh) :
    hear ({ ns with neighbors := out.table }, noteOf .neigh out.note) r =
      { r with neighbors := after neighKey r.neighbors out } := by
  obtain ⟨table, note, ret⟩ := out
  cases note <;> rfl

theorem right_hear (hr : Right ⟨ns, r⟩) (hm : Received ns m t) : Right ⟨t.1, hear t r⟩ := by
  have hk := hm.keyed hr.keyed
  obtain ⟨hkeyed, hl, hro, ha, hn⟩ := hr
  cases hm with
  | route rtas out _ _ hh =>
    rw [hear_route]
    exact ⟨hk, hl, sure_after hro hh hkeyed.routes.1, ha, hn⟩
  | link rtas out _ _ hh =>
    rw [hear_link]
    exact ⟨hk, sure_after hl hh hkeyed.links.1, hro, ha, hn⟩
  | addr rtas out _ _ hh =>
    rw [hear_addr]
    exact ⟨hk, hl, hro, sure_after ha hh hkeyed.addresses.1, hn⟩
  | neigh rtas out _ _ hh =>
    rw [hear_neigh]
    exact ⟨hk, hl, hro, ha, sure_after hn hh hkeyed.neighbors.1⟩
  | refused => exact ⟨hkeyed, hl, hro, ha, hn⟩

theorem complete_hear (hk : Keyed ns) (hc : Complete ⟨ns, r⟩) (hm : Received ns m t) :
    Complete ⟨t.1, hear t r⟩ := by
  obtain ⟨hl, hro, ha, hn⟩ := hc
  cases hm with
  | route rtas out _ _ hh =>
    rw [hear_route]
    exact ⟨hl, full_after hro hh hk.routes.1 hk.routes.2, ha, hn⟩
  | link rtas out _ _ hh =>
    rw [hear_link]
    exact ⟨full_after hl hh hk.links.1 hk.links.2, hro, ha, hn⟩
  | addr rtas out _ _ hh =>
    rw [hear_addr]
    exact ⟨hl, hro, full_after ha hh hk.addresses.1 hk.addresses.2, hn⟩
  | neigh rtas out _ _ hh =>
    rw [hear_neigh]
    exact ⟨hl, hro, ha, full_after hn hh hk.neighbors.1 hk.neighbors.2⟩
  | refused => exact ⟨hl, hro, ha, hn⟩

end Message

section Callme

variable (ns : Netns) (flags : Nat) (r : Replica) (l : List Nat)

theorem told_neighbors : (l.map (fun i => (⟨.neigh, i, flags⟩ : Note))).foldl
      (fun r x => r.told ns x) r =
    { r with neighbors := tellAll neighKey ns.neighbors flags r.neighbors l } := by
  induction l generalizing r with
  | nil => rfl
  | cons i l ih => exact ih _

theorem told_routes : (l.map (fun i => (⟨.route, i, flags⟩ : Note))).foldl
      (fun r x => r.told ns x) r =
    { r with routes := tellAll routeKey ns.routes flags r.routes l } := by
  induction l generalizing r with
  | nil => rfl
  | cons i l ih => exact ih _

theorem told_addresses : (l.map (fun i => (⟨.addr, i, flags⟩ : Note))).foldl
      (fun r x => r.told ns x) r =
    { r with addresses := tellAll addrKey ns.addresses flags r.addresses l } := by
  induction l generalizing r with
  | nil => rfl
  | cons i l ih => exact ih _

theorem told_links : (l.map (fun i => (⟨.link, i, flags⟩ : Note))).foldl
      (fun r x => r.told ns x) r =
    { r with links := tellAll linkKey ns.links flags r.links l } := by
  induction l generalizing r with
  | nil => rfl
  | cons i l ih => exact ih _

theorem told_callme (hn : h.notify = true) (del : Bool) :
    (netnsCallme h ns del).foldl (fun r x => r.told ns x) r =
      let flags := if del then netnsFDel else netnsFAdd
      ⟨tellAll linkKey ns.links flags r.links (liveIndices ns.links),
        tellAll routeKey ns.routes flags r.routes (liveIndices ns.routes),
        tellAll addrKey ns.addresses flags r.addresses (liveIndices ns.addresses),
        tellAll neighKey ns.neighbors flags r.neighbors (liveIndices ns.neighbors)⟩ := by
  rw [netnsCallme]
  dsimp only
  rw [if_pos hn, List.foldl_append, List.foldl_append, List.foldl_append, told_neighbors,
    told_routes, told_addresses, told_links]

end Callme

theorem follow_message (hn : h.notify = true) (m : Nlmsg) :
    follow h w (.message m) = some ⟨(nsRecvRtnl w.ns m).1, hear (nsRecvRtnl w.ns m) w.replica⟩ := by
  rw [follow, if_pos hn]
  rfl

theorem callme_add (hn : h.notify = true) (hr : Right w) (hf : follow h w (.callme false) = some w') :
    Right w' ∧ Complete w' := by
  obtain rfl := Option.some.inj hf
  rw [told_callme w.ns w.replica hn]
  obtain ⟨hk, hl, hro, ha, hne⟩ := hr
  refine ⟨⟨hk, ?_, ?_, ?_, ?_⟩, ?_, ?_, ?_, ?_⟩
  · exact sure_callme hk.links.2 hl
  · exact sure_callme hk.routes.2 hro
  · exact sure_callme hk.addresses.2 ha
  · exact sure_callme hk.neighbors.2 hne
  · exact full_callme hk.links.2 hl
  · exact full_callme hk.routes.2 hro
  · exact full_callme hk.addresses.2 ha
  · exact full_callme hk.neighbors.2 hne

theorem callme_del (hn : h.notify = true) (hr : Right w) (hf : follow h w (.callme true) = some w') :
    w'.ns = w.ns ∧ w'.replica = blank := by
  obtain rfl := Option.some.inj hf
  refine ⟨rfl, ?_⟩
  rw [told_callme w.ns w.replica hn]
  dsimp only
  rw [if_pos rfl, blank_callme hr.links, blank_callme hr.routes, blank_callme hr.addresses,
    blank_callme hr.neighbors]
  rfl

theorem right_blank {ns : Netns} (hk : Keyed ns) : Right ⟨ns, blank⟩ := by
  refine ⟨hk, ?_, ?_, ?_, ?_⟩ <;> exact fun k a hb => by cases hb

theorem right_follow (hn : h.notify = true) {e : Event} (hr : Right w) (hp : Plain w e)
    (hf : follow h w e = some w') : Right w' := by
  cases e with
  | message m =>
    rw [follow_message hn] at hf
    obtain rfl := Option.some.inj hf
    exact right_hear hr (received hp)
  | callme del =>
    cases del with
    | false => exact (callme_add hn hr hf).1
    | true =>
      obtain ⟨ns', r'⟩ := w'
      obtain ⟨rfl, rfl⟩ := callme_del hn hr hf
      exact right_blank hr.keyed

theorem complete_follow (hn : h.notify = true) {e : Event} (hr : Right w) (hc : Complete w)
    (hp : Plain w e) (he : e ≠ .callme true) (hf : follow h w e = some w') : Complete w' := by
  cases e with
  | message m =>
    rw [follow_message hn] at hf
    obtain rfl := Option.some.inj hf
    exact complete_hear hr.keyed hc (received hp)
  | callme del =>
    cases del with
    | false => exact (callme_add hn hr hf).2
    | true => exact absurd rfl he

theorem run_stays_right (hn : h.notify = true) {es : List Event} (hr : Right w)
    (hp : Meets (follow h) Plain w es) (hf : run (follow h) w es = some w') : Right w' :=
  invariant_of_meets (fun _ _ _ hs hc ht => right_follow hn hs hc ht) hr hp hf

theorem run_complete (hn : h.notify = true) {es : List Event} (hr : Right w) (hc : Complete w)
    (hp : Meets (follow h) Plain w es) (hno : ∀ e ∈ es, e ≠ .callme true)
    (hf : run (follow h) w es = some w') : Complete w' := by
  induction es generalizing w with
  | nil =>
    obtain rfl := Option.some.inj hf
    exact hc
  | cons e es ih =>
    obtain ⟨u, hu, hf⟩ := run_cons_eq_some.mp hf
    have hne := hno e List.mem_cons_self
    exact ih (right_follow hn hr hp.1 hu) (complete_follow hn hr hc hp.1 hne hu) (hp.2 u hu)
      (fun e he => hno e (List.mem_cons_of_mem _ he)) hf

/-- The subscriber holds the live object with a key, or none where there is none. -/
def Copies {α κ : Type} (key : α → κ) (p : Pool α) (r : κ → Option α) : Prop :=
  ∀ k a, r k = some a ↔ ∃ i, Live p i ∧ p.elt i = a ∧ key a = k

theorem copies {α κ : Type} {key : α → κ} {p : Pool α} {r : κ → Option α} (hs : Sure key p r)
    (hf : Full key p r) : Copies key p r := by
  intro k a
  constructor
  · exact hs k a
  · rintro ⟨i, hi, rfl, rfl⟩
    exact hf i hi

structure Mirror (w : Watch) : Prop where
  links : Copies linkKey w.ns.links w.replica.links
  routes : Copies routeKey w.ns.routes w.replica.routes
  addresses : Copies addrKey w.ns.addresses w.replica.addresses
  neighbors : Copies neighKey w.ns.neighbors w.replica.neighbors

/-- A subscriber that comes to a namespace at any time never holds an object that is not
live. From when it has asked to be called it has all of them, and it has none left when it
has asked to be told their deletion. -/
theorem run_replica {ms : List Nlmsg} {ns : Netns} {es : List Event}
    (hm : Meets receive Regular emptyNetns ms) (hrun : run receive emptyNetns ms = some ns)
    (hn : h.notify = true) (hp : Meets (follow h) Plain ⟨ns, blank⟩ es)
    (hf : run (follow h) ⟨ns, blank⟩ es = some w) :
    Right w ∧
      (∀ before later, es = before ++ .callme false :: later → (∀ e ∈ later, e ≠ .callme true) →
        Mirror w) ∧
      ∀ before, es = before ++ [.callme true] → w.replica = blank := by
  have hk : Keyed ns := by
    refine invariant_of_meets (fun s m t hs hg ht => ?_) keyed_empty hm hrun
    obtain rfl := Option.some.inj ht
    exact (received hg).keyed hs
  have hb := right_blank hk
  have hr := run_stays_right hn hb hp hf
  refine ⟨hr, ?_, ?_⟩
  · rintro before later rfl hno
    obtain ⟨hpb, hpl⟩ := meets_append.mp hp
    obtain ⟨u, hu, hrest⟩ := run_append_eq_some.mp hf
    obtain ⟨v, hv, hlast⟩ := run_cons_eq_some.mp hrest
    obtain ⟨hrv, hcv⟩ := callme_add hn (run_stays_right hn hb hpb hu) hv
    have hc := run_complete hn hrv hcv ((hpl u hu).2 v hv) hno hlast
    exact ⟨copies hr.links hc.links, copies hr.routes hc.routes,
      copies hr.addresses hc.addresses, copies hr.neighbors hc.neighbors⟩
  · rintro before rfl
    obtain ⟨hpb, -⟩ := meets_append.mp hp
    obtain ⟨u, hu, hrest⟩ := run_append_eq_some.mp hf
    obtain ⟨v, hv, hlast⟩ := run_cons_eq_some.mp hrest
    obtain rfl := Option.some.inj hlast
    exact (callme_del hn (run_stays_right hn hb hpb hu) hv).2

theorem run_replica_sample : ∃ ns w, run receive emptyNetns [plainRoute] = some ns ∧
    run (follow ⟨true, 0⟩) ⟨ns, blank⟩ [.callme false, .message plainRoute] = some w ∧
    Mirror w ∧ Live w.ns.routes 0 := by
  have hm : Meets receive Regular emptyNetns [plainRoute] :=
    ⟨regular_plainRoute _, fun _ _ => trivial⟩
  obtain ⟨ns, hns⟩ : ∃ ns, run receive emptyNetns [plainRoute] = some ns := ⟨_, rfl⟩
  have hp : Meets (follow ⟨true, 0⟩) Plain ⟨ns, blank⟩ [.callme false, .message plainRoute] :=
    ⟨trivial, fun t _ => ⟨regular_plainRoute t.ns, fun _ _ => trivial⟩⟩
  obtain ⟨w, hw⟩ : ∃ w, run (follow ⟨true, 0⟩) ⟨ns, blank⟩ [.callme false, .message plainRoute] =
      some w := ⟨_, rfl⟩
  refine ⟨ns, w, hns, hw, (run_replica hm hns rfl hp hw).2.1 [] [.message plainRoute] rfl ?_, ?_⟩
  · intro e he
    cases List.mem_singleton.mp he
    exact Event.noConfusion
  · obtain rfl := Option.some.inj hw
    obtain rfl := Option.some.inj hns
    decide

end Vppsb.NetnsReplica
