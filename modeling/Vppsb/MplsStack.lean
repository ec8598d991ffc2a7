import Mathlib.Algebra.Group.Nat.Defs
import Mathlib.Data.List.GetD
import Vppsb.NetnsKeys
import Vppsb.RouterObjects

namespace Vppsb.MplsStack

open Vppsb.PoolStore Vppsb.KeyedPool Vppsb.NetnsEntry Vppsb.NetnsTables Vppsb.NetnsReceive
  Vppsb.NetnsKeys Vppsb.NetnsUnique Vppsb.FibPaths Vppsb.MplsLabels Vppsb.RouterObjects

section Loop

/-- The entries that the decoding loop reads and the labels that it writes, by index. -/
structure Decoding where
  reads : List Nat
  writes : List (Nat × Nat)

/-- The loop of `get_mpls_label_stack` from the entry at an index on. The first number bounds
the passes. -/
def mplsLoop (b : Nat → UInt8) : Nat → Nat → Option Decoding
  | 0, _ => none
  | fuel + 1, i =>
      let entry := mplsEntry b i
      if label entry = 0 then some ⟨[i], []⟩
      else if bottom entry then some ⟨[i], [(i, label entry)]⟩
      else (mplsLoop b fuel (i + 1)).map (fun d => ⟨i :: d.reads, (i, label entry) :: d.writes⟩)

/-- From an index on the loop ends, and stays in `src` entries and `dst` labels. -/
def InBounds (b : Nat → UInt8) (src dst i : Nat) : Prop :=
  ∃ fuel d, mplsLoop b fuel i = some d ∧ (∀ r ∈ d.reads, r < src) ∧ ∀ w ∈ d.writes, w.1 < dst

variable {b : Nat → UInt8} {src dst i : Nat}

theorem inBounds_step : InBounds b src dst i ↔
    i < src ∧ (label (mplsEntry b i) = 0 ∨
      i < dst ∧ (bottom (mplsEntry b i) = true ∨ InBounds b src dst (i + 1))) := by
  constructor
  · rintro ⟨fuel, d, hd, hr, hw⟩
    cases fuel with
    | zero => exact absurd hd.symm (Option.some_ne_none d)
    | succ fuel =>
        rw [mplsLoop] at hd
        by_cases hl : label (mplsEntry b i) = 0
        · rw [if_pos hl] at hd
          obtain rfl := Option.some.inj hd
          exact ⟨hr i List.mem_cons_self, .inl hl⟩
        rw [if_neg hl] at hd
        by_cases hb : bottom (mplsEntry b i) = true
        · rw [if_pos hb] at hd
          obtain rfl := Option.some.inj hd
          exact ⟨hr i List.mem_cons_self, .inr ⟨hw _ List.mem_cons_self, .inl hb⟩⟩
        · rw [if_neg hb] at hd
          obtain ⟨d', hd', rfl⟩ := Option.map_eq_some_iff.mp hd
          obtain ⟨hr0, hr⟩ := List.forall_mem_cons.mp hr
          obtain ⟨hw0, hw⟩ := List.forall_mem_cons.mp hw
          exact ⟨hr0, .inr ⟨hw0, .inr ⟨fuel, d', hd', hr, hw⟩⟩⟩
  · rintro ⟨hsrc, h⟩
    by_cases hl : label (mplsEntry b i) = 0
    · refine ⟨1, ⟨[i], []⟩, ?_, by simpa using hsrc, fun _ h => absurd h List.not_mem_nil⟩
      rw [mplsLoop, if_pos hl]
    obtain ⟨hdst, h⟩ := h.resolve_left hl
    by_cases hb : bottom (mplsEntry b i) = true
    · refine ⟨1, ⟨[i], [(i, label (mplsEntry b i))]⟩, ?_, by simpa using hsrc, by simpa using hdst⟩
      rw [mplsLoop, if_neg hl, if_pos hb]
    · obtain ⟨fuel, d, hd, hr, hw⟩ := h.resolve_left hb
      refine ⟨fuel + 1, ⟨i :: d.reads, (i, label (mplsEntry b i)) :: d.writes⟩, ?_,
        List.forall_mem_cons.mpr ⟨hsrc, hr⟩, List.forall_mem_cons.mpr ⟨hdst, hw⟩⟩
      rw [mplsLoop, if_neg hl, if_neg hb, hd]
      rfl

/-- The model of `get_mpls_label_stack` has a result just if the loop stays in its arrays,
and gives the labels that the loop writes. -/
theorem getMplsLabelStack_iff_loop (len : Nat) (h : i + len = src) (ls : List Nat) :
    getMplsLabelStack b dst len i = some ls ↔ ∃ fuel d, mplsLoop b fuel i = some d ∧
      (∀ r ∈ d.reads, r < src) ∧ (∀ w ∈ d.writes, w.1 < dst) ∧ ls = d.writes.map Prod.snd := by
  induction len generalizing i ls with
  | zero =>
    refine iff_of_false (Option.some_ne_none ls ∘ Eq.symm) ?_
    rintro ⟨fuel, d, hd, hr, hw, _⟩
    have hin : InBounds b src dst i := ⟨fuel, d, hd, hr, hw⟩
    exact absurd (inBounds_step.mp hin).1 (by omega)
  | succ len ih =>
    have ih := fun ls => ih (i := i + 1) (by omega) ls
    have hi : i < src := by omega
    rw [getMplsLabelStack]
    constructor
    · intro hls
      by_cases hl : label (mplsEntry b i) = 0
      · rw [if_pos hl] at hls
        obtain rfl := Option.some.inj hls
        exact ⟨1, ⟨[i], []⟩, if_pos hl, by simpa using hi,
          fun _ hw => absurd hw List.not_mem_nil, rfl⟩
      rw [if_neg hl] at hls
      by_cases hdst : dst ≤ i
      · rw [if_pos hdst] at hls
        exact absurd hls.symm (Option.some_ne_none ls)
      rw [if_neg hdst] at hls
      by_cases hb : bottom (mplsEntry b i) = true
      · rw [if_pos hb] at hls
        obtain rfl := Option.some.inj hls
        refine ⟨1, ⟨[i], [(i, label (mplsEntry b i))]⟩, ?_, by simpa using hi, ?_, rfl⟩
        · rw [mplsLoop]
          exact (if_neg hl).trans (if_pos hb)
        · simpa using hdst
      · rw [if_neg hb] at hls
        obtain ⟨ls', hrest, rfl⟩ := Option.map_eq_some_iff.mp hls
        obtain ⟨fuel, d, hd, hr, hw, rfl⟩ := (ih ls').mp hrest
        refine ⟨fuel + 1, ⟨i :: d.reads, (i, label (mplsEntry b i)) :: d.writes⟩, ?_,
          List.forall_mem_cons.mpr ⟨hi, hr⟩, List.forall_mem_cons.mpr ⟨by omega, hw⟩, rfl⟩
        rw [mplsLoop, if_neg hl, if_neg hb, hd]
        rfl
    · rintro ⟨fuel, d, hd, hr, hw, rfl⟩
      cases fuel with
      | zero => exact absurd hd.symm (Option.some_ne_none d)
      | succ fuel =>
        rw [mplsLoop] at hd
        by_cases hl : label (mplsEntry b i) = 0
        · rw [if_pos hl] at hd ⊢
          obtain rfl := Option.some.inj hd
          rfl
        rw [if_neg hl] at hd ⊢
        by_cases hb : bottom (mplsEntry b i) = true
        · rw [if_pos hb] at hd ⊢
          obtain rfl := Option.some.inj hd
          have hlt : i < dst := hw _ List.mem_cons_self
          rw [if_neg (Nat.not_le.mpr hlt)]
          rfl
        · rw [if_neg hb] at hd ⊢
          obtain ⟨d', hd', rfl⟩ := Option.map_eq_some_iff.mp hd
          obtain ⟨hlt, hw⟩ := List.forall_mem_cons.mp hw
          have hrest := (ih _).mpr ⟨fuel, d', hd', (List.forall_mem_cons.mp hr).2, hw, rfl⟩
          rw [if_neg (Nat.not_le.mpr hlt), hrest]
          rfl

/-- With as many labels as entries, some entry has to end the loop. -/
theorem inBounds_square (len : Nat) (h : i + len = src) :
    InBounds b src src i ↔ ∃ e ∈ words b i len, Stops e := by
  rw [← exists_decode, ← getMplsLabelStack_eq len (Nat.le_of_eq h)]
  constructor
  · rintro ⟨fuel, d, hd, hr, hw⟩
    exact ⟨_, (getMplsLabelStack_iff_loop len h _).mpr ⟨fuel, d, hd, hr, hw, rfl⟩⟩
  · rintro ⟨ls, hls⟩
    obtain ⟨fuel, d, hd, hr, hw, _⟩ := (getMplsLabelStack_iff_loop len h ls).mp hls
    exact ⟨fuel, d, hd, hr, hw⟩

end Loop

section Fields

/-- In the entries of a field, with any memory behind it, the loop stays in `src` entries and
`dst` labels. -/
def Within {k : Nat} (f : Fin k → UInt8) (src dst : Nat) : Prop :=
  ∀ b : Nat → UInt8, (∀ i : Fin k, b i = f i) → InBounds b src dst 0

theorem bytes_eq {k : Nat} (f : Fin k → UInt8) (i : Fin k) : bytes f i = f i := by
  rw [bytes, byteAt, dif_pos i.isLt]

theorem bytes_congr {k : Nat} {f : Fin k → UInt8} {b : Nat → UInt8} (h : ∀ i : Fin k, b i = f i)
    (j : Nat) (hj : j < k) : bytes f j = b j :=
  (bytes_eq f ⟨j, hj⟩).trans (h ⟨j, hj⟩).symm

theorem encap_within (f : Fin (RouteField.size .encap) → UInt8) :
    Within f mplsStackDepth mplsStackDepth ↔
      ∃ e ∈ words (bytes f) 0 mplsStackDepth, Stops e := by
  constructor
  · intro h
    exact (inBounds_square mplsStackDepth (Nat.zero_add _)).mp (h (bytes f) (bytes_eq f))
  · intro h b hb
    apply (inBounds_square mplsStackDepth (Nat.zero_add _)).mpr
    rwa [← words_congr (Nat.le_refl _) (bytes_congr hb)]

theorem dst_within (f : Fin (RouteField.size .dst) → UInt8) :
    Within f 4 1 ↔ Stops (mplsEntry (bytes f) 0) ∨ label (mplsEntry (bytes f) 1) = 0 := by
  have step : ∀ b, InBounds b 4 1 0 ↔ Stops (mplsEntry b 0) ∨ label (mplsEntry b 1) = 0 := by
    intro b
    rw [inBounds_step, inBounds_step]
    simp [Stops, or_assoc]
  constructor
  · exact fun h => (step _).mp (h (bytes f) (bytes_eq f))
  · intro h b hb
    rw [step, ← mplsEntry_congr (by decide : 0 < 4) (bytes_congr hb),
      ← mplsEntry_congr (by decide : 1 < 4) (bytes_congr hb)]
    exact h

end Fields

section Message

/-- The attribute holds a nested one with these entries. -/
structure Carries (enc : Rtattr) (stack : List Nat) : Prop where
  inside : rtaPayload (nested enc) + 4 ≤ rtaPayload enc
  length : rtaPayload (nested enc) = 4 * stack.length
  entries : words (nested enc).data 0 stack.length = stack

def withEncap (m : Nlmsg) (enc : Rtattr) : Nlmsg :=
  { m with parsed := m.parsed.map (fun rtas => Function.update rtas rtaEncap (some enc)) }

/-- Whatever is in the tables and behind the nested attribute, the route is announced, and
where its interface has a tap, the labels are decoded within their arrays and a path is added
that pushes those of the stack. -/
def Installs (m : Nlmsg) (stack : List Nat) : Prop :=
  ∀ ns enc, Carries enc stack → ∃ slot,
    (nsRecvRtnl ns (withEncap m enc)).2 = some ⟨.route, slot, netnsFAdd⟩ ∧
    ∀ c sw, c.taps (oif ((nsRecvRtnl ns (withEncap m enc)).1.routes.elt slot)) = some sw →
      ∃ p, routePath c ((nsRecvRtnl ns (withEncap m enc)).1.routes.elt slot) = some (some p) ∧
        p.labels = upToBottom stack

variable {m : Nlmsg} {rtas : Rtas} {stack : List Nat}

theorem nsRecv_newroute (ns : Netns) (ht : m.nlmsgType = rtmNewroute)
    (ha : attributes 12 m = some rtas) : ∃ slot init old,
      (nsRecvRtnl ns m).2 = some ⟨.route, slot, netnsFAdd⟩ ∧
      (nsRecvRtnl ns m).1.routes.elt slot = written nsRoutemap m rtas init old ∧
      (nsGetRoute ns.routes (header 12 m) rtas = none → init = true ∧ old = zeroEntry) := by
  have hd : ¬ m.nlmsgType = rtmDelroute := by
    rw [ht]
    decide
  rw [nsRecvRtnl, if_pos (.inl ht), nsRcvRoute, nsRcv, ha]
  simp only [if_neg hd]
  cases hf : nsGetRoute ns.routes (header 12 m) rtas with
  | none =>
      exact ⟨fresh ns.routes, true, zeroEntry, rfl, Function.update_self _ _ _,
        fun _ => ⟨rfl, rfl⟩⟩
  | some i =>
      exact ⟨i, false, ns.routes.elt i, rfl, Function.update_self _ _ _,
        fun h => absurd h (Option.some_ne_none i)⟩

/-- The copy stops in front of `RTA_ENCAP` where an attribute before it is too long. -/
theorem get_encap_overlong {init : Bool} {e : Route}
    (hf : ¬ Fits RouteField.size nsRoutemapPlain rtas) :
    (rtnlEntrySet rtas init nsRoutemap e).1.get .encap = e.get .encap := by
  rw [nsRoutemap, rtnlEntrySet_overlong (by decide) hf]
  exact get_set_of_notMem (by decide) e

theorem encap_eq_decode (r : Route) :
    getMplsLabelStack (bytes (r.get .encap)) mplsStackDepth mplsStackDepth 0 =
      decode (encapEntries r) :=
  getMplsLabelStack_eq mplsStackDepth (Nat.le_refl _)

theorem routePath_ip4 {c : Config} {r : Route} {sw : UInt32} (h4 : byteAt r.hdr 0 = afInet)
    (hsw : c.taps (oif r) = some sw) {p : FibPath} :
    routePath c r = some (some p) ↔
      ∃ ls, decode (encapEntries r) = some ls ∧ ip4Path r sw ls = p := by
  rw [routePath, hsw]
  dsimp only
  rw [if_pos h4, encap_eq_decode, Option.map_eq_some_iff]
  simp only [Option.some_inj]

theorem labels_of_not_ip4 {c : Config} {r : Route} (h4 : byteAt r.hdr 0 ≠ afInet) {p : FibPath}
    (hp : routePath c r = some (some p)) : p.labels = [] := by
  rw [routePath] at hp
  cases hsw : c.taps (oif r) with
  | none =>
    rw [hsw] at hp
    cases hp
  | some sw =>
    rw [hsw] at hp
    dsimp only at hp
    rw [if_neg h4] at hp
    split at hp
    · cases hp
      rfl
    split at hp
    · obtain ⟨ls, _, hp⟩ := Option.map_eq_some_iff.mp hp
      cases hp
      rfl
    · cases hp

theorem attributes_withEncap (hl : 12 < datalen m) (hp : m.parsed = some rtas) (enc : Rtattr) :
    attributes 12 (withEncap m enc) = some (Function.update rtas rtaEncap (some enc)) := by
  have hl' : 12 < datalen (withEncap m enc) := hl
  rw [attributes, if_neg (by omega), if_pos hl', withEncap, hp]
  rfl

theorem fits_withEncap (rtas : Rtas) (enc : Rtattr) :
    Fits RouteField.size nsRoutemapPlain (Function.update rtas rtaEncap (some enc)) ↔
      Fits RouteField.size nsRoutemapPlain rtas := by
  have plain : ∀ x ∈ nsRoutemapPlain, x.type ≠ rtaEncap := by decide
  constructor
  · intro h x hx
    have hx' := h x hx
    rwa [Function.update_of_ne (plain x hx)] at hx'
  · intro h x hx
    rw [Function.update_of_ne (plain x hx)]
    exact h x hx

theorem words_encap {enc : Rtattr} (init : Bool) (old : Route) (hc : Carries enc stack)
    (hk : stack.length ≤ mplsStackDepth) (hf : Fits RouteField.size nsRoutemapPlain rtas) :
    encapEntries (written nsRoutemap m (Function.update rtas rtaEncap (some enc)) init old) =
      stack ++ words (nested enc).data stack.length (mplsStackDepth - stack.length) := by
  have hget : (written nsRoutemap m (Function.update rtas rtaEncap (some enc)) init old).get
      .encap = fun i : Fin (RouteField.size .encap) => (nested enc).data i := by
    have h := get_encap (Function.update rtas rtaEncap (some enc)) init old
      ((fits_withEncap rtas enc).mpr hf)
    rw [Function.update_self] at h
    have hle : ¬ rtaPayload (nested enc) > 28 := by
      rw [hc.length]
      rw [mplsStackDepth] at hk
      omega
    simp only [if_neg hle] at h
    exact h
  have hwords : words (bytes (fun i : Fin (RouteField.size .encap) => (nested enc).data i)) 0
      mplsStackDepth = words (nested enc).data 0 mplsStackDepth :=
    words_congr (n := mplsStackDepth) (Nat.le_refl _) (bytes_congr (fun _ => rfl))
  rw [encapEntries, hget, hwords]
  have hsplit : mplsStackDepth = stack.length + (mplsStackDepth - stack.length) := by omega
  conv_lhs => rw [hsplit]
  rw [words_append, hc.entries, Nat.zero_add]

def encapOf (stack : List Nat) : Rtattr :=
  ⟨12 + 4 * stack.length, fun i =>
    if i = 0 then UInt8.ofNat (4 + 4 * stack.length)
    else if i < 4 then 0
    else entryByte (stack.getD ((i - 4) / 4) someBottom) ((i - 4) % 4)⟩

theorem words_encapOf (h32 : ∀ e ∈ stack, e < 4294967296) (i n : Nat) :
    words (nested (encapOf stack)).data i n =
      (List.range' i n).map (fun j => stack.getD j someBottom) := by
  rw [words]
  apply List.map_congr_left
  intro j _
  have hdata : (nested (encapOf stack)).data =
      fun i => entryByte (stack.getD (i / 4) someBottom) (i % 4) := by
    funext i
    simp only [nested, encapOf]
    rw [if_neg (by omega), if_neg (by omega), Nat.add_sub_cancel_left]
  rw [hdata]
  apply mplsEntry_entryByte (fun j => stack.getD j someBottom)
  by_cases hj : j < stack.length
  · rw [List.getD_eq_getElem _ _ hj]
    exact h32 _ (List.getElem_mem hj)
  · rw [List.getD_eq_default _ _ (Nat.not_lt.mp hj)]
    decide

theorem carries_encapOf (h32 : ∀ e ∈ stack, e < 4294967296) (hk : stack.length ≤ mplsStackDepth) :
    Carries (encapOf stack) stack := by
  have hlen : (nested (encapOf stack)).rtaLen = 4 + 4 * stack.length := by
    have h0 : (encapOf stack).data 0 = UInt8.ofNat (4 + 4 * stack.length) := rfl
    have h1 : (encapOf stack).data 1 = 0 := rfl
    rw [mplsStackDepth] at hk
    rw [nested, h0, h1, UInt8.toNat_ofNat', UInt8.toNat_zero]
    change (4 + 4 * stack.length) % 2 ^ 8 + 256 * 0 = 4 + 4 * stack.length
    omega
  have hpay : rtaPayload (nested (encapOf stack)) = 4 * stack.length := by
    rw [rtaPayload, hlen, sizeSub, if_neg (by omega)]
    omega
  refine ⟨?_, hpay, ?_⟩
  · have hout : (encapOf stack).rtaLen = 12 + 4 * stack.length := rfl
    rw [hpay, rtaPayload, hout, sizeSub, if_neg (by omega)]
    omega
  · rw [words_encapOf h32]
    apply List.ext_getElem
    · rw [List.length_map, List.length_range']
    · intro j hj hj'
      rw [List.getElem_map, List.getElem_range', Nat.zero_add, Nat.one_mul,
        List.getD_eq_getElem _ _ hj']

theorem words_behind (h32 : ∀ e ∈ stack, e < 4294967296) (n : Nat) :
    words (nested (encapOf stack)).data stack.length n = List.replicate n someBottom := by
  rw [words_encapOf h32]
  apply List.eq_replicate_iff.mpr
  refine ⟨by rw [List.length_map, List.length_range'], fun x hx => ?_⟩
  obtain ⟨j, hj, rfl⟩ := List.mem_map.mp hx
  exact List.getD_eq_default _ _ (List.mem_range'_1.mp hj).1

theorem installs_of_terminated (ht : m.nlmsgType = rtmNewroute) (hl : 12 < datalen m)
    (hp : m.parsed = some rtas) (hk : stack.length ≤ mplsStackDepth)
    (h4 : byteAt (header 12 m) 0 = afInet) (hf : Fits RouteField.size nsRoutemapPlain rtas)
    (hs : Terminated stack) : Installs m stack := by
  intro ns enc hc
  obtain ⟨slot, init, old, hn, hr, -⟩ :=
    nsRecv_newroute (m := withEncap m enc) ns ht (attributes_withEncap hl hp enc)
  have hw := words_encap (m := withEncap m enc) init old hc hk hf
  have hdec := decode_of_terminated hs
    (words (nested enc).data stack.length (mplsStackDepth - stack.length))
  refine ⟨slot, hn, fun c sw hsw => ?_⟩
  rw [hr] at hsw ⊢
  refine ⟨_, (routePath_ip4 h4 hsw).mpr ⟨_, ?_, rfl⟩, rfl⟩
  rw [hw, hdec]

theorem terminated_of_installs (ht : m.nlmsgType = rtmNewroute) (hl : 12 < datalen m)
    (hp : m.parsed = some rtas) (hne : stack ≠ []) (hk : stack.length ≤ mplsStackDepth)
    (h32 : ∀ e ∈ stack, e < 4294967296) (h : Installs m stack) :
    byteAt (header 12 m) 0 = afInet ∧ Fits RouteField.size nsRoutemapPlain rtas ∧
      Terminated stack := by
  -- the empty tables, so that the entry is new, and a stack followed by bottom bits
  obtain ⟨slot, hn, hpaths⟩ := h emptyNetns (encapOf stack) (carries_encapOf h32 hk)
  obtain ⟨slot', init, old, hn', hr, hnew⟩ := nsRecv_newroute (m := withEncap m (encapOf stack))
    emptyNetns ht (attributes_withEncap hl hp (encapOf stack))
  obtain ⟨rfl, rfl⟩ := hnew rfl
  obtain rfl : slot = slot' := congrArg Note.slot (Option.some.inj (hn.symm.trans hn'))
  rw [hr] at hpaths
  obtain ⟨p, hpath, hlabels⟩ := hpaths ⟨fun _ => some 0, 0⟩ 0 rfl
  have hpush := upToBottom_ne_nil hne
  by_cases h4 : byteAt (header 12 m) 0 = afInet
  · obtain ⟨ls, hdec, rfl⟩ := (routePath_ip4 h4 rfl).mp hpath
    obtain rfl : ls = upToBottom stack := hlabels
    refine ⟨h4, ?_⟩
    by_cases hf : Fits RouteField.size nsRoutemapPlain rtas
    · refine ⟨hf, ?_⟩
      have hw := words_encap (m := withEncap m (encapOf stack)) true zeroEntry
        (carries_encapOf h32 hk) hk hf
      rw [hw, words_behind h32] at hdec
      exact terminated_of_decode hne hdec
    · -- the copy stops before it gets to the labels, and the new entry has none
      have hzero : (written nsRoutemap (withEncap m (encapOf stack))
          (Function.update rtas rtaEncap (some (encapOf stack))) true zeroEntry).get .encap =
          fun _ : Fin (RouteField.size .encap) => 0 :=
        get_encap_overlong (fun h => hf ((fits_withEncap rtas (encapOf stack)).mp h))
      have hnone : decode (words (bytes fun _ : Fin (RouteField.size .encap) => 0) 0
          mplsStackDepth) = some [] := by
        rw [mplsStackDepth, words_succ]
        exact decode_zero rfl _
      rw [encapEntries, hzero, hnone] at hdec
      exact absurd (Option.some.inj hdec).symm hpush
  · rw [labels_of_not_ip4 h4 hpath] at hlabels
    exact absurd hlabels.symm hpush

/-- A route message installs the stack that it carries just in case it is one of IPv4, no plain
attribute is too long and the stack has a bottom without a label zero down to it. To decode a
stored `encap` stays in its arrays if one of the seven entries ends the loop, and to decode the
`dst` of an MPLS route if the first entry does or the second label is zero. -/
theorem mplsStack_iff (ht : m.nlmsgType = rtmNewroute) (hl : 12 < datalen m)
    (hp : m.parsed = some rtas) (hne : stack ≠ []) (hk : stack.length ≤ mplsStackDepth)
    (h32 : ∀ e ∈ stack, e < 4294967296) :
    (Installs m stack ↔ byteAt (header 12 m) 0 = afInet ∧
      Fits RouteField.size nsRoutemapPlain rtas ∧ Terminated stack) ∧
    (∀ f : Fin (RouteField.size .encap) → UInt8, Within f mplsStackDepth mplsStackDepth ↔
      ∃ e ∈ words (bytes f) 0 mplsStackDepth, Stops e) ∧
    (∀ f : Fin (RouteField.size .dst) → UInt8, Within f 4 1 ↔
      Stops (mplsEntry (bytes f) 0) ∨ label (mplsEntry (bytes f) 1) = 0) :=
  ⟨⟨terminated_of_installs ht hl hp hne hk h32,
    fun h => installs_of_terminated ht hl hp hk h.1 h.2.1 h.2.2⟩, encap_within, dst_within⟩

theorem mplsStack_iff_sample :
    Installs encapRoute [409856] ↔ byteAt (header 12 encapRoute) 0 = afInet ∧
      Fits RouteField.size nsRoutemapPlain
        (fun t => ([(1, 12), (4, 20), (22, 28)].lookup t).map (attributeAt [2, 8, 0, 0, 254, 4, 0, 1,
          0, 0, 0, 0, 8, 0, 1, 0, 10, 0, 0, 0, 8, 0, 4, 0, 3, 0, 0, 0, 12, 0, 22, 0, 8, 0, 1, 0, 0, 6,
          65, 0])) ∧ Terminated [409856] :=
  (mplsStack_iff (m := encapRoute) rfl (by decide) rfl (by decide) (by decide) (by decide)).1

/-- Label 100, and an explicit null at the bottom. -/
theorem explicit_null_dropped : ¬ Installs encapRoute [409600, 256] := by
  intro h
  obtain ⟨-, -, ht⟩ := terminated_of_installs (m := encapRoute) rfl (by decide) rfl (by decide)
    (by decide) (by decide) h
  rw [terminated_cons (by decide)] at ht
  obtain hb | ht := ht
  · exact absurd hb (by decide)
  · exact not_terminated_of_label (by decide) ht

end Message

end Vppsb.MplsStack
