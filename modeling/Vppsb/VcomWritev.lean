import Vppsb.VcomSockets

namespace Vppsb.VcomWritev

open Vppsb.PoolStore Vppsb.KeyedPool Vppsb.PoolIndex Vppsb.VcomSockets
open Vppsb.VcomSelect (VcomSocketType einval)

def iovMax : Int := 1024

/-- The lookup that every call on a session starts with. -/
def boundSocket (s : VcomSocketMain) (fd : Int) : Except Int VcomSocket :=
  match s.sockidxByFd fd with
  | none => .error (-ebadf)
  | some p =>
      if (s.vsockets.elt p).type ≠ .vppcomBound then .error (-einval)
      else .ok (s.vsockets.elt p)

/-- What a call hands over to the session, and what it returns. -/
structure Written where
  handed : List UInt8
  rv : Int
deriving DecidableEq

/-- The loop over the vector. Each buffer comes with what the write of it returns,
if that is made. -/
def writevLoop : List (List UInt8 × Int) → Written → Written
  | [], t => t
  | (base, rv) :: ws, t =>
      if rv < 0 then
        if 0 < t.rv then t else { t with rv := rv }
      else
        writevLoop ws ⟨t.handed ++ base.take rv.toNat, t.rv + rv⟩

/-- `writes` is what the writes to a session return. -/
def vcomSocketWritev (s : VcomSocketMain) (fd : Int) (iov : Option (List (List UInt8)))
    (iovcnt : Int) (writes : Int → List Int) : Written :=
  match boundSocket s fd with
  | .error e => ⟨[], e⟩
  | .ok vsock =>
      match iov with
      | none => ⟨[], -einval⟩
      | some iov =>
          if iovcnt = 0 ∨ iovMax < iovcnt then ⟨[], -einval⟩
          else writevLoop ((iov.take iovcnt.toNat).zip (writes vsock.sid)) ⟨[], 0⟩

/-- The session gets a prefix of the vector, and the value is the length of it, or
the error of the first write. -/
structure Streams (iov : List (List UInt8)) (results : List Int) (w : Written) : Prop where
  isPrefix : w.handed <+: iov.flatten
  value : w.rv = w.handed.length ∨
    w.handed = [] ∧ w.rv < 0 ∧ results.head? = some w.rv

/-- The writes, as lengths and results, that come before the first failing one. -/
def accepted (calls : List (Nat × Int)) : List (Nat × Int) :=
  calls.takeWhile (fun c => decide (0 ≤ c.2))

/-- Behind a short write none takes a byte. -/
def NoGap (calls : List (Nat × Int)) : Prop :=
  (accepted calls).Pairwise (fun c d => c.2 < c.1 → d.2 = 0)

/-- A write that fails when none took a byte is the first one. -/
def FailsFirst (results : List Int) : Prop :=
  ∀ front e back, results = front ++ e :: back → (∀ r ∈ front, r = 0) → e < 0 → front = []

def taken : List (List UInt8 × Int) → List UInt8
  | [] => []
  | (base, rv) :: ws => if rv < 0 then [] else base.take rv.toNat ++ taken ws

def failure : List Int → Int
  | [] => 0
  | rv :: rs => if rv < 0 then rv else failure rs

def sizes (w : List UInt8 × Int) : Nat × Int := (w.1.length, w.2)

variable {ws : List (List UInt8 × Int)} {calls : List (Nat × Int)} {results : List Int}

theorem writevLoop_handed (t : Written) :
    (writevLoop ws t).handed = t.handed ++ taken ws := by
  induction ws generalizing t with
  | nil => exact (List.append_nil _).symm
  | cons w ws ih =>
      obtain ⟨base, rv⟩ := w
      by_cases h : rv < 0
      · rw [writevLoop, taken, if_pos h, if_pos h, List.append_nil]
        split <;> rfl
      · rw [writevLoop, taken, if_neg h, if_neg h, ih, List.append_assoc]

theorem writevLoop_rv (hw : ∀ w ∈ ws, w.2 ≤ w.1.length) (t : Written)
    (ht : t.rv = t.handed.length) :
    (writevLoop ws t).rv = if t.handed ++ taken ws = [] then failure (ws.map Prod.snd)
      else ((t.handed ++ taken ws).length : Int) := by
  induction ws generalizing t with
  | nil =>
      simp only [writevLoop, taken, List.append_nil, List.map_nil, failure]
      split
      · next h => simp [ht, h]
      · exact ht
  | cons w ws ih =>
      obtain ⟨base, rv⟩ := w
      have hb : rv ≤ base.length := hw (base, rv) List.mem_cons_self
      by_cases h : rv < 0
      · have hp : 0 < t.rv ↔ t.handed ≠ [] := by
          rw [ht, ← List.length_pos_iff]
          omega
        simp only [writevLoop, taken, if_pos h, List.append_nil, List.map_cons, failure]
        by_cases ho : t.handed = []
        · rw [if_pos ho, if_neg (fun h0 => hp.mp h0 ho)]
        · rw [if_neg ho, if_pos (hp.mpr ho), ht]
      · rw [writevLoop, if_neg h, ih (fun w hw' => hw w (List.mem_cons_of_mem _ hw'))]
        · simp only [taken, if_neg h, List.map_cons, failure, List.append_assoc]
        · rw [List.length_append, List.length_take]
          change t.rv + rv = _
          omega

theorem accepted_cons (c : Nat × Int) (cs : List (Nat × Int)) :
    accepted (c :: cs) = if 0 ≤ c.2 then c :: accepted cs else [] := by
  simp [accepted, List.takeWhile_cons]

theorem taken_eq_nil_iff (hw : ∀ w ∈ ws, w.2 ≤ w.1.length) :
    taken ws = [] ↔ ∀ c ∈ accepted (ws.map sizes), c.2 = 0 := by
  induction ws with
  | nil => exact iff_of_true rfl (fun c hc => absurd hc List.not_mem_nil)
  | cons w ws ih =>
      obtain ⟨base, rv⟩ := w
      have hb : rv ≤ base.length := hw (base, rv) List.mem_cons_self
      rw [List.map_cons, accepted_cons]
      by_cases hr : rv < 0
      · rw [taken, if_pos hr, if_neg (show ¬ 0 ≤ (sizes (base, rv)).2 by simpa [sizes] using hr)]
        exact iff_of_true rfl (fun c hc => absurd hc List.not_mem_nil)
      · rw [taken, if_neg hr, if_pos (show 0 ≤ (sizes (base, rv)).2 by simpa [sizes] using hr),
          List.append_eq_nil_iff, ih (fun w hw' => hw w (List.mem_cons_of_mem _ hw')),
          List.forall_mem_cons]
        apply and_congr_left
        intro _
        rw [← List.length_eq_zero_iff, List.length_take]
        simp only [sizes]
        omega

theorem mem_taken {y : UInt8} (h : y ∈ taken ws) : ∃ w ∈ ws, y ∈ w.1 := by
  induction ws with
  | nil => exact absurd h List.not_mem_nil
  | cons w ws ih =>
      obtain ⟨base, rv⟩ := w
      rw [taken] at h
      split at h
      · exact absurd h List.not_mem_nil
      · obtain h | h := List.mem_append.mp h
        · exact ⟨_, List.mem_cons_self, List.mem_of_mem_take h⟩
        · obtain ⟨w, hw, hy⟩ := ih h
          exact ⟨w, List.mem_cons_of_mem _ hw, hy⟩

def fill (x : UInt8) (calls : List (Nat × Int)) : List (List UInt8 × Int) :=
  calls.map (fun c => (List.replicate c.1 x, c.2))

theorem sizes_fill (x : UInt8) (calls : List (Nat × Int)) : (fill x calls).map sizes = calls := by
  simp [fill, sizes, Function.comp_def]

theorem mem_taken_fill {x y : UInt8} (h : y ∈ taken (fill x calls)) : y = x := by
  obtain ⟨w, hw, hy⟩ := mem_taken h
  obtain ⟨c, _, rfl⟩ := List.mem_map.mp hw
  exact List.eq_of_mem_replicate hy

theorem le_of_sizes (hc : ∀ c ∈ calls, c.2 ≤ c.1) (h : ws.map sizes = calls) :
    ∀ w ∈ ws, w.2 ≤ w.1.length := by
  subst h
  exact fun w hw => hc (sizes w) (List.mem_map_of_mem hw)

theorem short_not_prefix {l r : Nat} {xs ys : List UInt8} (hr : r < l) (hx : xs ≠ [])
    (h1 : ∀ x ∈ xs, x = 1) :
    ¬ (List.replicate l (0 : UInt8)).take r ++ xs <+: List.replicate l 0 ++ ys := by
  intro h
  obtain ⟨x, xs, rfl⟩ := List.exists_cons_of_ne_nil hx
  have hx1 : x = 1 := h1 x List.mem_cons_self
  rw [List.take_replicate, Nat.min_eq_left (by omega),
    show l = r + (l - r - 1 + 1) by omega, List.replicate_add, List.append_assoc,
    List.prefix_append_right_inj, List.replicate_succ, List.cons_append,
    List.cons_prefix_cons] at h
  rw [hx1] at h
  exact absurd h.1 (by decide)

theorem noGap_failed {c : Nat × Int} {cs : List (Nat × Int)} (h : c.2 < 0) : NoGap (c :: cs) := by
  rw [NoGap, accepted_cons, if_neg (by omega)]
  exact List.Pairwise.nil

theorem noGap_cons {c : Nat × Int} {cs : List (Nat × Int)} (h : 0 ≤ c.2) :
    NoGap (c :: cs) ↔ (c.2 < c.1 → ∀ d ∈ accepted cs, d.2 = 0) ∧ NoGap cs := by
  rw [NoGap, accepted_cons, if_pos h, List.pairwise_cons, ← NoGap]
  apply and_congr_left
  intro _
  exact ⟨fun hd hlt d hm => hd d hm hlt, fun hd d hm hlt => hd hlt d hm⟩

theorem prefix_of_noGap (hw : ∀ w ∈ ws, w.2 ≤ w.1.length) (hgap : NoGap (ws.map sizes)) :
    taken ws <+: (ws.map Prod.fst).flatten := by
  induction ws with
  | nil => exact List.nil_prefix
  | cons w ws ih =>
      obtain ⟨base, rv⟩ := w
      have hws : ∀ w ∈ ws, w.2 ≤ w.1.length := fun w h => hw w (List.mem_cons_of_mem _ h)
      by_cases hr : rv < 0
      · rw [taken, if_pos hr]
        exact List.nil_prefix
      · rw [List.map_cons] at hgap
        obtain ⟨hshort, hgap⟩ := (noGap_cons (c := sizes (base, rv)) (Int.not_lt.mp hr)).mp hgap
        rw [taken, if_neg hr, List.map_cons, List.flatten_cons]
        by_cases hlt : rv < base.length
        · rw [(taken_eq_nil_iff hws).mpr (hshort hlt), List.append_nil]
          exact (List.take_prefix _ _).trans (List.prefix_append _ _)
        · rw [List.take_of_length_le (by omega)]
          exact (List.prefix_append_right_inj _).mpr (ih hws hgap)

theorem noGap_of_prefix (hc : ∀ c ∈ calls, c.2 ≤ c.1)
    (H : ∀ ws : List (List UInt8 × Int), ws.map sizes = calls →
      taken ws <+: (ws.map Prod.fst).flatten) : NoGap calls := by
  induction calls with
  | nil => exact List.Pairwise.nil
  | cons c cs ih =>
      obtain ⟨l, r⟩ := c
      have hcs : ∀ c ∈ cs, c.2 ≤ c.1 := fun c h => hc c (List.mem_cons_of_mem _ h)
      by_cases hr : r < 0
      · exact noGap_failed hr
      · have hcons : ∀ ws : List (List UInt8 × Int), ws.map sizes = cs →
            (List.replicate l 0).take r.toNat ++ taken ws <+:
              List.replicate l 0 ++ (ws.map Prod.fst).flatten := by
          intro ws hws
          have hp := H ((List.replicate l 0, r) :: ws) (by simp [sizes, hws])
          rwa [taken, if_neg hr, List.map_cons, List.flatten_cons] at hp
        have short : r < l → ∀ d ∈ accepted cs, d.2 = 0 := by
          intro hlt
          by_contra hne
          have ht := (not_congr (taken_eq_nil_iff (le_of_sizes hcs (sizes_fill 1 cs)))).mpr
            (by rwa [sizes_fill])
          have hp := hcons (fill 1 cs) (sizes_fill 1 cs)
          exact short_not_prefix (by omega) ht (fun y hy => mem_taken_fill hy) hp
        refine (noGap_cons (Int.not_lt.mp hr)).mpr ⟨short, ih hcs fun ws hws => ?_⟩
        by_cases hlt : r < l
        · rw [(taken_eq_nil_iff (le_of_sizes hcs hws)).mpr (by rw [hws]; exact short hlt)]
          exact List.nil_prefix
        · have hp := hcons ws hws
          rw [List.take_of_length_le (by rw [List.length_replicate]; omega)] at hp
          exact (List.prefix_append_right_inj _).mp hp

/-- What is handed over is a prefix, whatever the vector holds, just in case no byte is
taken behind a short write. -/
theorem taken_prefix_iff (hc : ∀ c ∈ calls, c.2 ≤ c.1) :
    (∀ ws : List (List UInt8 × Int), ws.map sizes = calls →
      taken ws <+: (ws.map Prod.fst).flatten) ↔ NoGap calls := by
  constructor
  · exact noGap_of_prefix hc
  · intro hgap ws hws
    apply prefix_of_noGap (le_of_sizes hc hws)
    rwa [hws]

theorem failure_cases (rs : List Int) :
    failure rs = 0 ∨ ∃ front e back, rs = front ++ e :: back ∧ (∀ r ∈ front, 0 ≤ r) ∧ e < 0 ∧
      failure rs = e := by
  induction rs with
  | nil => exact .inl rfl
  | cons r rs ih =>
      by_cases h : r < 0
      · exact .inr ⟨[], r, rs, rfl, fun _ h => absurd h List.not_mem_nil, h, if_pos h⟩
      · have hf : failure (r :: rs) = failure rs := if_neg h
        rw [hf]
        obtain h0 | ⟨front, e, back, rfl, hfront, he, hfe⟩ := ih
        · exact .inl h0
        · right
          refine ⟨r :: front, e, back, rfl, ?_, he, hfe⟩
          exact List.forall_mem_cons.mpr ⟨by omega, hfront⟩

theorem failure_append {front back : List Int} {e : Int} (hf : ∀ r ∈ front, 0 ≤ r) (he : e < 0) :
    failure (front ++ e :: back) = e := by
  induction front with
  | nil => exact if_pos he
  | cons r front ih =>
      have hr : 0 ≤ r := hf r List.mem_cons_self
      rw [List.cons_append, failure, if_neg (by omega)]
      exact ih (fun r h => hf r (List.mem_cons_of_mem _ h))

theorem taken_nil_front {front back : List Int} (hw : ∀ w ∈ ws, w.2 ≤ w.1.length)
    (h : taken ws = []) (hr : ws.map Prod.snd = front ++ back) (hf : ∀ r ∈ front, 0 ≤ r) :
    ∀ r ∈ front, r = 0 := by
  induction front generalizing ws with
  | nil => exact fun _ h => absurd h List.not_mem_nil
  | cons r front ih =>
      obtain _ | ⟨⟨base, rv⟩, ws⟩ := ws
      · exact absurd hr (List.cons_ne_nil _ _).symm
      · obtain ⟨hrv, hrest⟩ := List.cons.inj hr
        have hrv' : rv = r := hrv
        subst hrv'
        have h0 : 0 ≤ rv := hf rv List.mem_cons_self
        have hb : rv ≤ base.length := hw (base, rv) List.mem_cons_self
        rw [taken, if_neg (by omega), List.append_eq_nil_iff, ← List.length_eq_zero_iff,
          List.length_take] at h
        have hz := ih (fun w hw' => hw w (List.mem_cons_of_mem _ hw')) h.2 hrest
          (fun r hr' => hf r (List.mem_cons_of_mem _ hr'))
        exact List.forall_mem_cons.mpr ⟨by omega, hz⟩

theorem taken_nil_of_zeros {front back : List Int} {e : Int}
    (hr : ws.map Prod.snd = front ++ e :: back) (hz : ∀ r ∈ front, r = 0) (he : e < 0) :
    taken ws = [] := by
  induction front generalizing ws with
  | nil =>
      obtain _ | ⟨⟨base, rv⟩, ws⟩ := ws
      · rfl
      · have hrv : rv = e := (List.cons.inj hr).1
        rw [taken, if_pos (hrv ▸ he)]
  | cons r front ih =>
      obtain _ | ⟨⟨base, rv⟩, ws⟩ := ws
      · rfl
      · obtain ⟨hrv, hrest⟩ := List.cons.inj hr
        have hrv' : rv = 0 := Eq.trans hrv (hz r List.mem_cons_self)
        rw [taken, hrv', if_neg (by omega),
          ih hrest (fun r hr' => hz r (List.mem_cons_of_mem _ hr'))]
        rfl

/-- The value is right just in case an error that is returned is that of the first
write. -/
theorem value_iff (hw : ∀ w ∈ ws, w.2 ≤ w.1.length) :
    ((writevLoop ws ⟨[], 0⟩).rv = (writevLoop ws ⟨[], 0⟩).handed.length ∨
      (writevLoop ws ⟨[], 0⟩).handed = [] ∧ (writevLoop ws ⟨[], 0⟩).rv < 0 ∧
        (ws.map Prod.snd).head? = some (writevLoop ws ⟨[], 0⟩).rv) ↔
      FailsFirst (ws.map Prod.snd) := by
  rw [writevLoop_rv hw _ rfl, writevLoop_handed]
  simp only [List.nil_append]
  by_cases h : taken ws = []
  · rw [if_pos h, h]
    simp only [List.length_nil, Int.natCast_zero, true_and]
    obtain h0 | ⟨front, e, back, hr, hf, he, hfe⟩ := failure_cases (ws.map Prod.snd)
    · apply iff_of_true (Or.inl h0)
      intro front e back hr hz he
      rw [hr, failure_append (fun r h => Int.le_of_eq (hz r h).symm) he] at h0
      omega
    · have hz := taken_nil_front hw h hr hf
      rw [hfe]
      constructor
      · rintro (h0 | ⟨_, hhead⟩) front' e' back' hr' hz' he'
        · omega
        · cases front' with
          | nil => rfl
          | cons r front' =>
              rw [hr', List.cons_append, List.head?_cons, hz' r List.mem_cons_self] at hhead
              have h0 := Option.some.inj hhead
              omega
      · intro hff
        have hnil : front = [] := hff front e back hr hz he
        right
        rw [hr, hnil]
        exact ⟨he, rfl⟩
  · rw [if_neg h]
    apply iff_of_true (Or.inl rfl)
    intro front e back hr hz he
    exact absurd (taken_nil_of_zeros hr hz he) h

variable {s : VcomSocketMain} {fd : Int} {vsock : VcomSocket} {lens : List Nat}
  {writes : Int → List Int}

theorem map_zip {iov : List (List UInt8)} {rs : List Int} (h : iov.map List.length = lens) :
    (iov.zip rs).map sizes = lens.zip rs := by
  rw [← h, List.zip_map_left]
  rfl

theorem map_fst_snd_zip {iov : List (List UInt8)} {rs : List Int} (h : iov.length = rs.length) :
    (iov.zip rs).map Prod.fst = iov ∧ (iov.zip rs).map Prod.snd = rs :=
  ⟨List.map_fst_zip h.le, List.map_snd_zip h.ge⟩

theorem vcomSocketWritev_eq (hs : boundSocket s fd = .ok vsock) {iov : List (List UInt8)}
    (hn : (iov.length : Int) ≤ iovMax) (hne : iov ≠ []) :
    vcomSocketWritev s fd (some iov) iov.length writes =
      writevLoop (iov.zip (writes vsock.sid)) ⟨[], 0⟩ := by
  have h0 : ¬ (iov.length : Int) = 0 := by
    have := List.length_pos_iff.mpr hne
    omega
  rw [vcomSocketWritev, hs]
  simp only [Int.toNat_natCast, List.take_length]
  rw [if_neg (by omega)]

/-- Over all contents of the buffers. -/
theorem writev_streams_iff (hs : boundSocket s fd = .ok vsock) (hn : (lens.length : Int) ≤ iovMax)
    (hrs : writes vsock.sid = results) (hr : results.length = lens.length)
    (hw : ∀ c ∈ lens.zip results, c.2 ≤ c.1) :
    (∀ iov : List (List UInt8), iov.map List.length = lens →
      Streams iov results (vcomSocketWritev s fd (some iov) iov.length writes)) ↔
    lens ≠ [] ∧ NoGap (lens.zip results) ∧ FailsFirst results := by
  have eq : ∀ iov : List (List UInt8), iov.map List.length = lens → lens ≠ [] →
      vcomSocketWritev s fd (some iov) iov.length writes = writevLoop (iov.zip results) ⟨[], 0⟩ := by
    intro iov h hne
    subst h
    rw [vcomSocketWritev_eq hs (by rwa [List.length_map] at hn) (by simpa using hne), hrs]
  have bounds : ∀ iov : List (List UInt8), iov.map List.length = lens →
      ∀ w ∈ iov.zip results, w.2 ≤ w.1.length := fun iov h => le_of_sizes hw (map_zip h)
  constructor
  · intro H
    have hne : lens ≠ [] := by
      rintro rfl
      obtain ⟨-, h | ⟨-, -, h⟩⟩ := H [] rfl
      · rw [vcomSocketWritev, hs] at h
        exact absurd (show -einval = 0 from h) (by decide)
      · rw [List.length_eq_zero_iff.mp hr] at h
        exact Option.some_ne_none _ h.symm
    refine ⟨hne, (taken_prefix_iff hw).mp ?_, ?_⟩
    · intro ws hws
      have hfst : ws.map (List.length ∘ Prod.fst) = lens := by
        have h := congrArg (List.map Prod.fst) hws
        rwa [List.map_map, List.map_fst_zip (by omega)] at h
      have hsnd : ws.map Prod.snd = results := by
        have h := congrArg (List.map Prod.snd) hws
        rwa [List.map_map, List.map_snd_zip (by omega)] at h
      have h := (H (ws.map Prod.fst) (by rwa [List.map_map])).isPrefix
      rw [eq _ (by rwa [List.map_map]) hne, writevLoop_handed, ← hsnd, List.zip_map',
        List.map_id'] at h
      exact h
    · let iov := lens.map (fun n => List.replicate n (0 : UInt8))
      have hl : iov.map List.length = lens := by simp [iov, Function.comp_def]
      have h := (H iov hl).value
      rw [eq iov hl hne] at h
      have hil : iov.length = results.length := by simp [iov, hr]
      have hsnd := (map_fst_snd_zip hil).2
      have hv := (value_iff (bounds iov hl)).mp (by rwa [hsnd])
      rwa [hsnd] at hv
  · rintro ⟨hne, hgap, hff⟩ iov hl
    have hil : iov.length = results.length := by rw [hr, ← hl, List.length_map]
    obtain ⟨hfst, hsnd⟩ := map_fst_snd_zip hil
    rw [eq iov hl hne]
    constructor
    · rw [writevLoop_handed]
      have h := (taken_prefix_iff hw).mpr hgap _ (map_zip hl)
      rwa [hfst] at h
    · have hv := (value_iff (bounds iov hl)).mpr (by rwa [hsnd])
      rwa [hsnd] at hv

def oneSocket : VcomSocketMain := addVsock vcomSocketMainInit 5 1

theorem writev_streams_iff_sample :
    (∀ iov : List (List UInt8), iov.map List.length = [2, 0, 3] →
      Streams iov [2, 0, 1] (vcomSocketWritev oneSocket 5 (some iov) iov.length
        (fun _ => [2, 0, 1]))) ↔
    [2, 0, 3] ≠ [] ∧ NoGap [(2, 2), (0, 0), (3, 1)] ∧ FailsFirst [2, 0, 1] :=
  writev_streams_iff (show boundSocket oneSocket 5 = .ok ⟨5, 1, .vppcomBound⟩ from rfl)
    (by decide) (show (fun _ => [2, 0, 1] : Int → List Int) 1 = _ from rfl) rfl (by decide)

/-- The session takes one byte of two, and then the next buffer. -/
theorem writev_gap : ¬ Streams [[1, 2], [3]] [1, 1]
    (vcomSocketWritev oneSocket 5 (some [[1, 2], [3]]) 2 (fun _ => [1, 1])) :=
  fun h => absurd h.isPrefix (by decide)

end Vppsb.VcomWritev
