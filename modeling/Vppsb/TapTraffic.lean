import Vppsb.TapNeighbor
import Vppsb.TapRx

namespace Vppsb.TapTraffic

open Vppsb.StepRun Vppsb.TapLookups Vppsb.VlibBuffer Vppsb.TapRx
open Vppsb.TapNeighbor (Written tapInjectTapSendBuffer rewound)

/-- The sizes that the node is built with, and the output node of each interface. -/
structure Build where
  lengths : Nat
  size : Nat
  outputNodeIndex : Nat → Nat

/-- What the `k`-th call of `tap_rx` in a run of the node gets: the buffers that the free
list has, and the bytes of a packet or none. -/
structure Input where
  allocated : Nat → List Nat
  readv : Nat → Option (List UInt8)

structure RxRun where
  state : RxState
  count : Nat
  warnings : List String

def rxLoop (bd : Build) (inp : Input) : Nat → RxState → List Nat → Option RxRun
  | k, s, [] => some ⟨s, k, []⟩
  | k, s, fd :: rest => do
    let r ← tapRx bd.lengths bd.size bd.outputNodeIndex (inp.allocated k) (inp.readv k) s fd
    if r.count ≠ 1 then some ⟨r.state, 0, r.warning.toList ++ ["rx failed"]⟩
    else
      let t ← rxLoop bd inp (k + 1) r.state rest
      some { t with warnings := r.warning.toList ++ t.warnings }

/-- The loop over the packets of a frame, each with what `writev` returns for it. -/
def txLoop (im : TapInjectMain) : (Nat → Buffer) → List (Nat × Int) → (Nat → Buffer) × List Written
  | m, [] => (m, [])
  | m, (bi, nBytes) :: rest =>
    let fd := tapInjectLookupTapFd im (m bi).swIfIndexRx
    if fd = noIndex then txLoop im m rest
    else
      let r := txLoop im (Function.update m bi (rewound (m bi))) rest
      (r.1, tapInjectTapSendBuffer nBytes fd (rewound (m bi)) :: r.2)

/-- The taps and the buffers, the descriptors that can be read, what has been written to
taps, and the buffers that have been freed. -/
structure Plane where
  rx : RxState
  openFds : List Nat
  rxFileDescriptors : List Nat
  written : List Written
  freed : List Nat

def Plane.taps (s : Plane) : State := ⟨s.rx.im, s.openFds⟩

def Plane.withTaps (s : Plane) (t : State) : Plane :=
  { s with rx := { s.rx with im := t.im }, openFds := t.openFds }

def tapInjectTapRead (s : Plane) (fd : Nat) : Plane :=
  { s with rxFileDescriptors := s.rxFileDescriptors ++ [fd] }

def tapInjectRx (bd : Build) (inp : Input) (s : Plane) : Option (Plane × RxRun) := do
  let r ← rxLoop bd inp 0 s.rx s.rxFileDescriptors
  some ({ s with rx := r.state, rxFileDescriptors := [] }, r)

def tapInjectTx (s : Plane) (frame : List (Nat × Int)) : Plane :=
  let r := txLoop s.rx.im s.rx.buffers frame
  { s with
    rx := { s.rx with buffers := r.1 }
    written := s.written ++ r.2
    freed := s.freed ++ frame.map Prod.fst }

/-- `others` is what the other nodes do with the buffers. -/
inductive Event where
  | act (a : Act)
  | readable (fd : Nat)
  | rx (inp : Input)
  | tx (frame : List (Nat × Int))
  | others (buffers : Nat → Buffer)

def step (bd : Build) (s : Plane) : Event → Option Plane
  | .act a => (TapLookups.step s.taps a).map s.withTaps
  | .readable fd => some (tapInjectTapRead s fd)
  | .rx inp => (tapInjectRx bd inp s).map (fun r => r.1)
  | .tx frame => some (tapInjectTx s frame)
  | .others buffers => some { s with rx := { s.rx with buffers := buffers } }

def launched (buffers : Nat → Buffer) : Plane :=
  ⟨⟨TapLookups.start.im, [], buffers, []⟩, [], [], [], []⟩

def Clear (b : Buffer) : Prop := b.nextPresent = false ∧ b.totalLengthValid = false

/-- From the `k`-th call on, the allocator hands out free buffers, each of them once in a
run of the node, and a packet that is read fits in the buffers. -/
structure Supplied (bd : Build) (inp : Input) (k : Nat) (s : RxState) : Prop where
  nodup : ∀ j, k ≤ j → (inp.allocated j).Nodup
  apart : ∀ j, k ≤ j → ∀ b ∈ inp.allocated j, b ∉ s.rxBuffers
  disjoint : ∀ i j, i ≠ j → ∀ b ∈ inp.allocated i, b ∉ inp.allocated j
  clear : ∀ j, k ≤ j → ∀ b ∈ inp.allocated j, Clear (s.buffers b)
  bytes : ∀ j bytes, inp.readv j = some bytes →
    0 < bytes.length ∧ bytes.length ≤ mtuBuffers bd.size * bd.size

/-- No interface gets a second tap, and nobody else touches the buffers that are kept. -/
def Fair (bd : Build) (s : Plane) : Event → Prop
  | .act a => Kernel s.taps a ∧ Free s.taps a
  | .readable fd => fd ≠ noIndex
  | .rx inp => Supplied bd inp 0 s.rx
  | .tx _ => True
  | .others buffers => ∀ b ∈ s.rx.rxBuffers, buffers b = s.rx.buffers b

/-- A packet that came from a tap: its interface, the bytes that were read, and the chain of
buffers that they are in. -/
structure Delivery where
  fd : Nat
  swIfIndex : Nat
  bytes : List UInt8
  first : Nat
  rest : List Nat

def Delivery.chain (d : Delivery) : List Nat := d.first :: d.rest

/-- The packet is whole, in a chain of full buffers, and knows its interface. -/
structure Whole (bd : Build) (m : Nat → Buffer) (d : Delivery) : Prop where
  chain : Chain m bd.size d.bytes.length d.chain
  bytes : payload m d.chain = d.bytes
  rx : (m d.first).swIfIndexRx = d.swIfIndex
  tx : (m d.first).swIfIndexTx = d.swIfIndex

/-- Why the `k`-th call of `tap_rx` sends nothing and leaves `t`: the descriptor is of no tap, or
there are too few buffers with those of the free list, or nothing has been read. -/
def Fails (bd : Build) (inp : Input) (k fd : Nat) (t : RxState) : Prop :=
  tapInjectLookupSwIfIndexFromTapFd t.im fd = noIndex ∨
    (t.rxBuffers.length < mtuBuffers bd.size ∧
      ∀ b ∈ (inp.allocated k).take numBuffersToAlloc, b ∈ t.rxBuffers) ∨
    inp.readv k = none

/-- What the calls of `tap_rx` from the `k`-th on have done: one packet has been sent for
each descriptor up to the first one that failed, and no buffer has been lost. -/
structure Delivers (bd : Build) (inp : Input) (k : Nat) (s : RxState) (fds : List Nat)
    (ds : List Delivery) (allocated : List Nat) (r : RxRun) : Prop where
  im : r.state.im = s.im
  sent : r.state.sent = s.sent ++ ds.map (fun d => (bd.outputNodeIndex d.swIfIndex, [d.first]))
  served : ds.map Delivery.fd <+: fds
  stopped : ∀ fd, fds[ds.length]? = some fd → Fails bd inp (k + ds.length) fd r.state
  read : ∀ i d, ds[i]? = some d → inp.readv (k + i) = some d.bytes
  own : ∀ d ∈ ds, d.swIfIndex ≠ noIndex ∧
    tapInjectLookupSwIfIndexFromTapFd s.im d.fd = d.swIfIndex
  whole : ∀ d ∈ ds, Whole bd r.state.buffers d
  kept : (r.state.rxBuffers ++ ds.flatMap Delivery.chain).Perm (s.rxBuffers ++ allocated)
  nodup : (s.rxBuffers ++ allocated).Nodup
  handed : ∀ b ∈ allocated, ∃ j, k ≤ j ∧ b ∈ inp.allocated j
  clear : ∀ b ∈ r.state.rxBuffers, Clear (r.state.buffers b)
  frame : ∀ b, b ∉ s.rxBuffers → b ∉ allocated → r.state.buffers b = s.buffers b
  count : r.count = if ds.length = fds.length then k + fds.length else 0

def wireBytes (b : Buffer) : List UInt8 :=
  (List.range (b.currentLength + b.currentData).toNat).map (fun i : Nat => b.data i)

def ownWrite (im : TapInjectMain) (b : Buffer) : Option (Nat × List UInt8) :=
  if tapInjectLookupTapFd im b.swIfIndexRx = noIndex then none
  else some (tapInjectLookupTapFd im b.swIfIndexRx, wireBytes b)

variable {bd : Build} {inp : Input} {s t : RxState} {fd k : Nat}

section One

variable {lengths size : Nat} {out : Nat → Nat} {allocated : List Nat} {readv : Option (List UInt8)}
  {bytes : List UInt8} {r : RxResult}

def obtained (size : Nat) (allocated : List Nat) (s : RxState) : List Nat :=
  if s.rxBuffers.length < mtuBuffers size then allocated.take numBuffersToAlloc else []

def refill (size : Nat) (allocated : List Nat) (s : RxState) : RxState :=
  { s with rxBuffers := s.rxBuffers ++ obtained size allocated s }

theorem tapRx_short (htap : tapInjectLookupSwIfIndexFromTapFd s.im fd ≠ noIndex)
    (hlen : (refill size allocated s).rxBuffers.length < mtuBuffers size) :
    tapRx lengths size out allocated readv s fd =
      some ⟨refill size allocated s, 0, some "failed to allocate buffers"⟩ := by
  by_cases hshort : s.rxBuffers.length < mtuBuffers size
  · rw [refill, obtained, if_pos hshort] at hlen ⊢
    simp only [tapRx, if_neg htap, if_pos hshort, if_pos hlen]
  · rw [refill, obtained, if_neg hshort, List.append_nil] at hlen
    exact absurd hlen hshort

/-- The free list gives what it has when there are too few buffers. -/
theorem refill_takes (hlen : (refill size allocated s).rxBuffers.length < mtuBuffers size) :
    ∀ b ∈ allocated.take numBuffersToAlloc, b ∈ (refill size allocated s).rxBuffers := by
  rw [refill, List.length_append] at hlen
  have hshort : s.rxBuffers.length < mtuBuffers size := Nat.lt_of_le_of_lt (Nat.le_add_right _ _) hlen
  intro b hb
  rw [refill, obtained, if_pos hshort]
  exact List.mem_append_right _ hb

theorem tapRx_refill (htap : tapInjectLookupSwIfIndexFromTapFd s.im fd ≠ noIndex)
    (hlen : mtuBuffers size ≤ (refill size allocated s).rxBuffers.length) :
    tapRx lengths size out allocated readv s fd =
      tapRx lengths size out [] readv (refill size allocated s) fd := by
  have hno := Nat.not_lt.mpr hlen
  by_cases hshort : s.rxBuffers.length < mtuBuffers size
  · rw [refill, obtained, if_pos hshort] at hno ⊢
    simp only [tapRx, if_neg htap, if_pos hshort, if_neg hno]
  · rw [refill, obtained, if_neg hshort, List.append_nil]
    simp only [tapRx, if_neg htap, if_neg hshort]

theorem linkBuffers_swIfIndex {prev next : Nat} {left : Int} {m : Nat → Buffer} (b : Nat) :
    (linkBuffers lengths size prev next left m b).swIfIndexRx = (m b).swIfIndexRx ∧
      (linkBuffers lengths size prev next left m b).swIfIndexTx = (m b).swIfIndexTx := by
  rw [linkBuffers]
  by_cases hp : b = prev
  · subst hp
    by_cases hn : b = next
    · subst hn
      rw [Function.update_self, Function.update_self]
      exact ⟨rfl, rfl⟩
    · rw [Function.update_of_ne hn, Function.update_self]
      exact ⟨rfl, rfl⟩
  · by_cases hn : b = next
    · subst hn
      rw [Function.update_self, Function.update_of_ne hp]
      exact ⟨rfl, rfl⟩
    · rw [Function.update_of_ne hn, Function.update_of_ne hp]
      exact ⟨rfl, rfl⟩

theorem chainLoop_swIfIndex {rest : List Nat} {prev i j : Nat} {left : Int} {m m' : Nat → Buffer}
    (h : chainLoop lengths size rest prev i left m = some (j, m')) (b : Nat) :
    (m' b).swIfIndexRx = (m b).swIfIndexRx ∧ (m' b).swIfIndexTx = (m b).swIfIndexTx := by
  induction rest generalizing prev i left m with
  | nil =>
    rw [chainLoop] at h
    split at h
    · cases h
    · cases h
      exact ⟨rfl, rfl⟩
  | cons next rest ih =>
    rw [chainLoop] at h
    split at h
    · obtain ⟨hrx, htx⟩ := ih h
      exact ⟨hrx.trans (linkBuffers_swIfIndex b).1, htx.trans (linkBuffers_swIfIndex b).2⟩
    · cases h
      exact ⟨rfl, rfl⟩

theorem tapRx_swIfIndex (htap : tapInjectLookupSwIfIndexFromTapFd s.im fd ≠ noIndex)
    (hlen : mtuBuffers size ≤ s.rxBuffers.length)
    (h : tapRx lengths size out allocated (some bytes) s fd = some r) :
    r.state.im = s.im ∧ ∃ first,
      r.state.sent = s.sent ++ [(out (tapInjectLookupSwIfIndexFromTapFd s.im fd), [first])] ∧
      (r.state.buffers first).swIfIndexRx = tapInjectLookupSwIfIndexFromTapFd s.im fd ∧
      (r.state.buffers first).swIfIndexTx = tapInjectLookupSwIfIndexFromTapFd s.im fd := by
  have hno := Nat.not_lt.mpr hlen
  simp only [tapRx, if_neg htap, if_neg hno] at h
  cases hbi : s.rxBuffers.reverse.take (mtuBuffers size) with
  | nil =>
    simp only [hbi] at h
    cases h
  | cons first rest =>
    simp only [hbi, Option.bind_eq_bind, Option.bind_eq_some_iff] at h
    obtain ⟨⟨j, m'⟩, hrun, hr⟩ := h
    cases hr
    refine ⟨rfl, first, rfl, ?_⟩
    obtain ⟨hrx, htx⟩ := chainLoop_swIfIndex hrun first
    rw [Function.update_self, firstBuffer] at hrx htx
    rw [hrx, htx]
    split <;> exact ⟨rfl, rfl⟩

end One

def Kept (s : RxState) : Prop := s.rxBuffers.Nodup ∧ ∀ b ∈ s.rxBuffers, Clear (s.buffers b)

theorem obtained_sublist (size : Nat) (allocated : List Nat) (s : RxState) :
    (obtained size allocated s).Sublist allocated := by
  rw [obtained]
  split
  · exact List.take_sublist _ _
  · exact List.nil_sublist _

theorem Kept.append (hkept : Kept s) (hsup : Supplied bd inp k s) {got : List Nat}
    (hgot : got.Sublist (inp.allocated k)) :
    Kept { s with rxBuffers := s.rxBuffers ++ got } := by
  refine ⟨List.nodup_append.mpr ⟨hkept.1, (hsup.nodup k (Nat.le_refl k)).sublist hgot, ?_⟩, ?_⟩
  · rintro a ha b hb rfl
    exact hsup.apart k (Nat.le_refl k) a (hgot.subset hb) ha
  · intro b hb
    rcases List.mem_append.mp hb with h | h
    · exact hkept.2 b h
    · exact hsup.clear k (Nat.le_refl k) b (hgot.subset h)

/-- What a call of `tap_rx` has done that has read a packet, where `got` are the buffers
from the free list. -/
structure Sends (bd : Build) (inp : Input) (k : Nat) (s : RxState) (fd : Nat) (got : List Nat)
    (d : Delivery) (t : RxState) : Prop where
  source : d.fd = fd
  own : d.swIfIndex ≠ noIndex ∧ tapInjectLookupSwIfIndexFromTapFd s.im fd = d.swIfIndex
  read : inp.readv k = some d.bytes
  im : t.im = s.im
  sent : t.sent = s.sent ++ [(bd.outputNodeIndex d.swIfIndex, [d.first])]
  whole : Whole bd t.buffers d
  taken : t.rxBuffers ++ d.chain.reverse = s.rxBuffers ++ got
  frame : ∀ b, b ∉ d.chain → t.buffers b = s.buffers b

section Call

variable (hsize : 0 < bd.size) (hfits : bd.size < bd.lengths) (hsup : Supplied bd inp k s)
  (hkept : Kept s)

include hsize hfits hsup hkept

theorem tapRx_packet {got : List Nat} {bytes : List UInt8}
    (htap : tapInjectLookupSwIfIndexFromTapFd s.im fd ≠ noIndex)
    (hgot : got.Sublist (inp.allocated k)) (hread : inp.readv k = some bytes)
    (hlen : mtuBuffers bd.size ≤ (s.rxBuffers ++ got).length) :
    ∃ r d, tapRx bd.lengths bd.size bd.outputNodeIndex [] (some bytes)
        { s with rxBuffers := s.rxBuffers ++ got } fd = some r ∧ r.count = 1 ∧
      Sends bd inp k s fd got d r.state := by
  obtain ⟨hn, hclear⟩ := hkept.append hsup hgot
  obtain ⟨hpos, hle⟩ := hsup.bytes k bytes hread
  obtain ⟨r, first, rest, hrun, hrecv⟩ := tapRx_receives bd.lengths bd.size bd.outputNodeIndex []
    { s with rxBuffers := s.rxBuffers ++ got } fd bytes hsize hfits htap hlen hn hclear hpos hle
  obtain ⟨him, first', hsent, hrx, htx⟩ :=
    tapRx_swIfIndex (s := { s with rxBuffers := s.rxBuffers ++ got }) htap hlen hrun
  have hfirst : first' = first := by
    have heq := List.append_cancel_left (hsent.symm.trans hrecv.sent)
    simpa using heq
  subst hfirst
  refine ⟨r, ⟨fd, tapInjectLookupSwIfIndexFromTapFd s.im fd, bytes, first', rest⟩, hrun, hrecv.count,
    ?_⟩
  constructor
  case source => rfl
  case own => exact ⟨htap, rfl⟩
  case read => exact hread
  case im => exact him
  case sent => exact hsent
  case whole => exact ⟨hrecv.chain, hrecv.bytes, hrx, htx⟩
  case taken => exact hrecv.taken
  case frame => exact hrecv.kept

theorem tapRx_cases (fd : Nat) : ∃ r got, got.Sublist (inp.allocated k) ∧
    tapRx bd.lengths bd.size bd.outputNodeIndex (inp.allocated k) (inp.readv k) s fd = some r ∧
      ((r.count = 0 ∧ r.state = { s with rxBuffers := s.rxBuffers ++ got } ∧
          Fails bd inp k fd r.state) ∨
        (r.count = 1 ∧ ∃ d, Sends bd inp k s fd got d r.state)) := by
  by_cases htap : tapInjectLookupSwIfIndexFromTapFd s.im fd = noIndex
  · refine ⟨⟨s, 0, none⟩, [], List.nil_sublist _, ?_, Or.inl ⟨rfl, ?_, Or.inl htap⟩⟩
    · rw [tapRx, if_pos htap]
    · rw [List.append_nil]
  · have hgot := obtained_sublist bd.size (inp.allocated k) s
    by_cases hlen : (refill bd.size (inp.allocated k) s).rxBuffers.length < mtuBuffers bd.size
    · exact ⟨_, _, hgot, tapRx_short htap hlen,
        Or.inl ⟨rfl, rfl, Or.inr (Or.inl ⟨hlen, refill_takes hlen⟩)⟩⟩
    · rw [tapRx_refill htap (Nat.not_lt.mp hlen)]
      cases hread : inp.readv k with
      | none =>
        refine ⟨⟨_, 0, some "readv failed"⟩, _, hgot, ?_,
          Or.inl ⟨rfl, rfl, Or.inr (Or.inr hread)⟩⟩
        have htap' : tapInjectLookupSwIfIndexFromTapFd
            (refill bd.size (inp.allocated k) s).im fd ≠ noIndex := htap
        simp only [tapRx, if_neg htap', if_neg hlen]
        rfl
      | some bytes =>
        obtain ⟨r, d, hrun, hcount, hsends⟩ :=
          tapRx_packet hsize hfits hsup hkept htap hgot hread (Nat.not_lt.mp hlen)
        exact ⟨r, _, hgot, hrun, Or.inr ⟨hcount, d, hsends⟩⟩

end Call

section Sends

variable {got : List Nat} {d : Delivery}

theorem Sends.perm (h : Sends bd inp k s fd got d t) :
    (t.rxBuffers ++ d.chain).Perm (s.rxBuffers ++ got) := by
  rw [← h.taken]
  exact (List.reverse_perm d.chain).symm.append_left t.rxBuffers

theorem Sends.kept (h : Sends bd inp k s fd got d t) (hkept : Kept s)
    (hsup : Supplied bd inp k s) (hgot : got.Sublist (inp.allocated k)) : Kept t := by
  obtain ⟨hn, hclear⟩ := hkept.append hsup hgot
  have hn' := (h.perm.nodup_iff).mpr hn
  obtain ⟨hrx, _, hdisj⟩ := List.nodup_append.mp hn'
  refine ⟨hrx, fun b hb => ?_⟩
  rw [h.frame b fun hc => hdisj b hb b hc rfl]
  exact hclear b (h.perm.subset (List.mem_append_left _ hb))

theorem Sends.supplied (h : Sends bd inp k s fd got d t) (hsup : Supplied bd inp k s)
    (hgot : got.Sublist (inp.allocated k)) : Supplied bd inp (k + 1) t := by
  have hnot : ∀ j, k + 1 ≤ j → ∀ b ∈ inp.allocated j, b ∉ t.rxBuffers ++ d.chain := by
    intro j hj b hb hmem
    rcases List.mem_append.mp (h.perm.subset hmem) with hs | hg
    · exact hsup.apart j (by omega) b hb hs
    · exact hsup.disjoint j k (by omega) b hb (hgot.subset hg)
  refine ⟨fun j hj => hsup.nodup j (by omega), fun j hj b hb hrx => ?_, hsup.disjoint,
    fun j hj b hb => ?_, hsup.bytes⟩
  · exact hnot j hj b hb (List.mem_append_left _ hrx)
  · rw [h.frame b fun hc => hnot j hj b hb (List.mem_append_right _ hc)]
    exact hsup.clear j (by omega) b hb

end Sends

section Loop

theorem Delivers.nothing {fds : List Nat} {got : List Nat} {r : RxRun} (hkept : Kept s)
    (hsup : Supplied bd inp k s) (hgot : got.Sublist (inp.allocated k))
    (hstate : r.state = { s with rxBuffers := s.rxBuffers ++ got })
    (hcount : r.count = if ([] : List Delivery).length = fds.length then k + fds.length else 0)
    (hstopped : ∀ fd, fds[0]? = some fd → Fails bd inp k fd r.state) :
    Delivers bd inp k s fds [] got r := by
  obtain ⟨hn, hclear⟩ := hkept.append hsup hgot
  constructor
  case im => rw [hstate]
  case sent => rw [hstate, List.map_nil, List.append_nil]
  case served => exact List.nil_prefix
  case stopped => exact hstopped
  case read => exact fun i d h => absurd h (by simp)
  case own => exact fun d h => absurd h List.not_mem_nil
  case whole => exact fun d h => absurd h List.not_mem_nil
  case kept =>
    rw [hstate, List.flatMap_nil, List.append_nil]
  case nodup => exact hn
  case handed => exact fun b hb => ⟨k, Nat.le_refl k, hgot.subset hb⟩
  case clear =>
    rw [hstate]
    exact hclear
  case frame =>
    rw [hstate]
    exact fun b _ _ => rfl
  case count => exact hcount

theorem Whole.congr {m m' : Nat → Buffer} {d : Delivery} (h : Whole bd m d)
    (heq : ∀ b ∈ d.chain, m' b = m b) : Whole bd m' d := by
  have hfirst := heq d.first List.mem_cons_self
  refine ⟨h.chain.congr heq, ?_, by rw [hfirst, h.rx], by rw [hfirst, h.tx]⟩
  rw [← h.bytes, payload, payload]
  exact List.flatMap_congr fun b hb => by rw [heq b hb]

theorem Sends.chain_apart {fd : Nat} {got allocated : List Nat} {d : Delivery} {t : RxState}
    (hsends : Sends bd inp k s fd got d t) (hsup : Supplied bd inp k s) (hkept : Kept s)
    (hgot : got.Sublist (inp.allocated k))
    (hhanded : ∀ b ∈ allocated, ∃ j, k + 1 ≤ j ∧ b ∈ inp.allocated j) :
    ∀ b ∈ d.chain, b ∉ t.rxBuffers ∧ b ∉ allocated := by
  intro b hb
  obtain ⟨hn, _⟩ := hkept.append hsup hgot
  obtain ⟨_, _, hdisj⟩ := List.nodup_append.mp (hsends.perm.nodup_iff.mpr hn)
  refine ⟨fun hrx => hdisj b hrx b hb rfl, fun ha => ?_⟩
  obtain ⟨j, hj, hbj⟩ := hhanded b ha
  rcases List.mem_append.mp (hsends.perm.subset (List.mem_append_right _ hb)) with hs | hg
  · exact hsup.apart j (by omega) b hbj hs
  · exact hsup.disjoint j k (by omega) b hbj (hgot.subset hg)

theorem Delivers.cons {fds : List Nat} {got allocated : List Nat} {d : Delivery}
    {ds : List Delivery} {r r' : RxRun} (hsup : Supplied bd inp k s)
    (hkept : Kept s) (hgot : got.Sublist (inp.allocated k)) (hsends : Sends bd inp k s fd got d t)
    (h : Delivers bd inp (k + 1) t fds ds allocated r) (hstate : r'.state = r.state)
    (hcount : r'.count = r.count) :
    Delivers bd inp k s (fd :: fds) (d :: ds) (got ++ allocated) r' := by
  obtain ⟨hn, _⟩ := hkept.append hsup hgot
  have hchain := hsends.chain_apart hsup hkept hgot h.handed
  have hperm : (t.rxBuffers ++ d.chain ++ allocated).Perm (s.rxBuffers ++ (got ++ allocated)) := by
    rw [← List.append_assoc]
    exact hsends.perm.append_right allocated
  constructor
  case im => rw [hstate, h.im, hsends.im]
  case sent => rw [hstate, h.sent, hsends.sent, List.append_assoc, List.map_cons, List.singleton_append]
  case served =>
    rw [List.map_cons, hsends.source]
    exact List.cons_prefix_cons.mpr ⟨rfl, h.served⟩
  case stopped =>
    intro g hg
    rw [List.length_cons, List.getElem?_cons_succ] at hg
    rw [hstate, List.length_cons, Nat.add_comm ds.length 1, ← Nat.add_assoc]
    exact h.stopped g hg
  case read =>
    intro i d' hd'
    cases i with
    | zero =>
      cases hd'
      exact hsends.read
    | succ i =>
      rw [Nat.add_comm i 1, ← Nat.add_assoc]
      exact h.read i d' hd'
  case own =>
    refine List.forall_mem_cons.mpr ⟨?_, fun d' hd' => ?_⟩
    · rw [hsends.source]
      exact hsends.own
    · rw [← hsends.im]
      exact h.own d' hd'
  case whole =>
    rw [hstate]
    refine List.forall_mem_cons.mpr ⟨hsends.whole.congr fun b hb => ?_, h.whole⟩
    exact h.frame b (hchain b hb).1 (hchain b hb).2
  case kept =>
    rw [hstate, List.flatMap_cons]
    refine List.Perm.trans ?_ hperm
    have hrest := h.kept.append_left d.chain
    refine (List.perm_append_comm_assoc _ _ _).trans (hrest.trans ?_)
    rw [← List.append_assoc]
    exact List.perm_append_comm.append_right allocated
  case nodup =>
    rw [← hperm.nodup_iff]
    obtain ⟨hrx, ha, hdisj⟩ := List.nodup_append.mp h.nodup
    refine List.nodup_append.mpr ⟨hsends.perm.nodup_iff.mpr hn, ha, ?_⟩
    intro a hmem b hb
    rcases List.mem_append.mp hmem with hm | hm
    · exact hdisj a hm b hb
    · rintro rfl
      exact (hchain a hm).2 hb
  case handed =>
    intro b hb
    rcases List.mem_append.mp hb with hg | ha
    · exact ⟨k, Nat.le_refl k, hgot.subset hg⟩
    · obtain ⟨j, hj, hbj⟩ := h.handed b ha
      exact ⟨j, by omega, hbj⟩
  case clear =>
    rw [hstate]
    exact h.clear
  case frame =>
    intro b hs hga
    obtain ⟨hg, ha⟩ := not_or.mp (mt List.mem_append.mpr hga)
    have hnot : b ∉ t.rxBuffers ++ d.chain :=
      fun hm => (List.mem_append.mp (hsends.perm.subset hm)).elim hs hg
    obtain ⟨hrx, hc⟩ := not_or.mp (mt List.mem_append.mpr hnot)
    rw [hstate, h.frame b hrx ha, hsends.frame b hc]
  case count =>
    rw [hcount, h.count, List.length_cons, List.length_cons]
    split <;> split <;> omega

/-- The loop sends one packet for each descriptor up to the first one that fails. -/
theorem rxLoop_delivers (hsize : 0 < bd.size) (hfits : bd.size < bd.lengths) (fds : List Nat)
    (hsup : Supplied bd inp k s) (hkept : Kept s) :
    ∃ r ds allocated, rxLoop bd inp k s fds = some r ∧
      Delivers bd inp k s fds ds allocated r := by
  induction fds generalizing k s with
  | nil =>
    refine ⟨_, [], [], rfl, Delivers.nothing hkept hsup (List.nil_sublist _) ?_ rfl fun fd h => ?_⟩
    · rw [List.append_nil]
    · cases h
  | cons fd fds ih =>
    obtain ⟨c, got, hgot, hrun, ⟨hcount, hstate, hfails⟩ | ⟨hcount, d, hsends⟩⟩ :=
      tapRx_cases hsize hfits hsup hkept fd
    · refine ⟨⟨c.state, 0, c.warning.toList ++ ["rx failed"]⟩, [], got, ?_,
        Delivers.nothing hkept hsup hgot hstate ?_ fun g hg => ?_⟩
      · rw [rxLoop, hrun, Option.bind_eq_bind, Option.bind_some, if_pos]
        rw [hcount]
        decide
      · rw [if_neg]
        exact Nat.succ_ne_zero _ ∘ Eq.symm
      · cases hg
        exact hfails
    · obtain ⟨r, ds, allocated, hrest, hdel⟩ :=
        ih (hsends.supplied hsup hgot) (hsends.kept hkept hsup hgot)
      refine ⟨{ r with warnings := c.warning.toList ++ r.warnings }, d :: ds, got ++ allocated, ?_,
        hdel.cons hsup hkept hgot hsends rfl rfl⟩
      rw [rxLoop, hrun, Option.bind_eq_bind, Option.bind_some, if_neg (fun h => h hcount), hrest]
      rfl

end Loop

section Tx

variable {im : TapInjectMain} {m : Nat → Buffer}

theorem wireBytes_rewound (b : Buffer) : wireBytes (rewound b) = wireBytes b := by
  have hend : b.currentLength - -b.currentData + (b.currentData + -b.currentData) =
      b.currentLength + b.currentData := by omega
  rw [wireBytes, rewound, vlibBufferAdvance, hend]
  rfl

theorem currentBytes_rewound (b : Buffer) : currentBytes (rewound b) = wireBytes b := by
  have hlen : b.currentLength - -b.currentData = b.currentLength + b.currentData := by omega
  have hbyte : ∀ i : Nat, byteAt (rewound b) i = b.data i := by
    intro i
    have hdata : b.currentData + -b.currentData = 0 := by omega
    rw [byteAt, rewound, vlibBufferAdvance, hdata, Int.zero_add]
  rw [currentBytes, wireBytes, rewound, vlibBufferAdvance, ← hlen]
  exact List.map_congr_left fun i _ => hbyte i

theorem ownWrite_rewound (b : Buffer) : ownWrite im (rewound b) = ownWrite im b := by
  rw [ownWrite, ownWrite, wireBytes_rewound]
  rfl

/-- Each packet goes to the tap of its own interface, also one whose buffer comes twice. -/
theorem txLoop_written (frame : List (Nat × Int)) :
    (txLoop im m frame).2.map (fun w => (w.fd, w.bytes)) =
      frame.filterMap (fun e => ownWrite im (m e.1)) := by
  induction frame generalizing m with
  | nil => rfl
  | cons e frame ih =>
    obtain ⟨bi, nBytes⟩ := e
    rw [txLoop]
    by_cases htap : tapInjectLookupTapFd im (m bi).swIfIndexRx = noIndex
    · have hnone : ownWrite im (m bi) = none := if_pos htap
      rw [if_pos htap, List.filterMap_cons]
      simp only [hnone]
      exact ih
    · have hown : ownWrite im (m bi) =
          some (tapInjectLookupTapFd im (m bi).swIfIndexRx, wireBytes (m bi)) := if_neg htap
      have hsame : ∀ b, ownWrite im (Function.update m bi (rewound (m bi)) b) = ownWrite im (m b) := by
        intro b
        by_cases hb : b = bi
        · rw [hb, Function.update_self, ownWrite_rewound]
        · rw [Function.update_of_ne hb]
      rw [if_neg htap, List.filterMap_cons]
      simp only [hown, List.map_cons, ih, hsame]
      rw [tapInjectTapSendBuffer, currentBytes_rewound]

theorem txLoop_clear (frame : List (Nat × Int)) (b : Nat) :
    Clear ((txLoop im m frame).1 b) ↔ Clear (m b) := by
  induction frame generalizing m with
  | nil => exact Iff.rfl
  | cons e frame ih =>
    obtain ⟨bi, nBytes⟩ := e
    rw [txLoop]
    by_cases htap : tapInjectLookupTapFd im (m bi).swIfIndexRx = noIndex
    · rw [if_pos htap]
      exact ih
    · rw [if_neg htap]
      refine ih.trans ?_
      by_cases hb : b = bi
      · rw [hb, Function.update_self]
        exact Iff.rfl
      · rw [Function.update_of_ne hb]

end Tx

structure Good (s : Plane) : Prop where
  sound : Sound s.taps
  kept : Kept s.rx
  readable : ∀ fd ∈ s.rxFileDescriptors, fd ≠ noIndex

/-- What the nodes do in a state: a run of the input node sends each packet, whole and from
the interface of the tap that it was read from, and a frame of the output node goes to the
taps of the interfaces that its packets came from. -/
structure Carries (bd : Build) (s : Plane) : Prop where
  rx : ∀ inp, Supplied bd inp 0 s.rx → ∃ r ds allocated,
    tapInjectRx bd inp s = some ({ s with rx := r.state, rxFileDescriptors := [] }, r) ∧
      Delivers bd inp 0 s.rx s.rxFileDescriptors ds allocated r ∧
      ∀ d ∈ ds, d.fd ∈ s.openFds ∧ tapInjectLookupTapFd s.rx.im d.swIfIndex = d.fd
  tx : ∀ frame,
    (tapInjectTx s frame).written.map (fun w => (w.fd, w.bytes)) =
      s.written.map (fun w => (w.fd, w.bytes)) ++
        frame.filterMap (fun e => ownWrite s.rx.im (s.rx.buffers e.1)) ∧
    (tapInjectTx s frame).freed = s.freed ++ frame.map Prod.fst
  back : ∀ b fd bytes, b.swIfIndexRx ≠ noIndex → ownWrite s.rx.im b = some (fd, bytes) →
    fd ∈ s.openFds ∧ tapInjectLookupSwIfIndexFromTapFd s.rx.im fd = b.swIfIndexRx

section Runs

variable {p q : Plane}

theorem launched_good (buffers : Nat → Buffer) : Good (launched buffers) :=
  ⟨start_sound, ⟨List.nodup_nil, fun _ hb => absurd hb List.not_mem_nil⟩,
    fun _ hfd => absurd hfd List.not_mem_nil⟩

theorem Good.delivers (hg : Good p) (hsize : 0 < bd.size) (hfits : bd.size < bd.lengths)
    (hsup : Supplied bd inp 0 p.rx) : ∃ r ds allocated,
      tapInjectRx bd inp p = some ({ p with rx := r.state, rxFileDescriptors := [] }, r) ∧
        Delivers bd inp 0 p.rx p.rxFileDescriptors ds allocated r := by
  obtain ⟨r, ds, allocated, hrun, hdel⟩ :=
    rxLoop_delivers hsize hfits p.rxFileDescriptors hsup hg.kept
  refine ⟨r, ds, allocated, ?_, hdel⟩
  rw [tapInjectRx, hrun]
  rfl

theorem Good.step (hg : Good p) (hsize : 0 < bd.size) (hfits : bd.size < bd.lengths) {e : Event}
    (hf : Fair bd p e) : ∃ q, step bd p e = some q ∧ Good q := by
  cases e with
  | act a =>
    obtain ⟨t, ht, hsound, _⟩ := step_sound hg.sound hf.1 hf.2
    refine ⟨p.withTaps t, ?_, hsound, hg.kept, hg.readable⟩
    rw [TapTraffic.step, ht]
    rfl
  | readable fd =>
    refine ⟨_, rfl, hg.sound, hg.kept, fun g hgmem => ?_⟩
    rcases List.mem_append.mp hgmem with h | h
    · exact hg.readable g h
    · rw [List.mem_singleton.mp h]
      exact hf
  | rx inp =>
    obtain ⟨r, ds, allocated, hrun, hdel⟩ := hg.delivers hsize hfits hf
    refine ⟨{ p with rx := r.state, rxFileDescriptors := [] }, ?_, ?_, ?_, ?_⟩
    · rw [TapTraffic.step, hrun]
      rfl
    · have hsound := hg.sound
      rw [Plane.taps] at hsound ⊢
      rw [hdel.im]
      exact hsound
    · exact ⟨(List.nodup_append.mp (hdel.kept.nodup_iff.mpr hdel.nodup)).1, hdel.clear⟩
    · exact fun g h => absurd h List.not_mem_nil
  | tx frame =>
    refine ⟨_, rfl, hg.sound, ⟨hg.kept.1, fun b hb => ?_⟩, hg.readable⟩
    exact (txLoop_clear frame b).mpr (hg.kept.2 b hb)
  | others buffers =>
    refine ⟨_, rfl, hg.sound, ⟨hg.kept.1, fun b hb => ?_⟩, hg.readable⟩
    show Clear (buffers b)
    rw [hf b hb]
    exact hg.kept.2 b hb

theorem Good.carries (hg : Good p) (hsize : 0 < bd.size) (hfits : bd.size < bd.lengths) :
    Carries bd p := by
  constructor
  case rx =>
    intro inp hsup
    obtain ⟨r, ds, allocated, hrun, hdel⟩ := hg.delivers hsize hfits hsup
    refine ⟨r, ds, allocated, hrun, hdel, fun d hd => ?_⟩
    have hfd : d.fd ≠ noIndex :=
      hg.readable d.fd (hdel.served.subset (List.mem_map_of_mem hd))
    obtain ⟨hsw, hlook⟩ := hdel.own d hd
    have hback := (hg.sound.fds d.swIfIndex d.fd hsw hfd).mpr hlook
    exact ⟨(hg.sound.recorded d.fd).mpr ⟨hfd, d.swIfIndex, hsw, hback⟩, hback⟩
  case tx =>
    intro frame
    refine ⟨?_, rfl⟩
    rw [tapInjectTx, List.map_append, txLoop_written]
  case back =>
    intro b fd bytes hsw hown
    rw [ownWrite] at hown
    split at hown
    · cases hown
    · rename_i htap
      cases hown
      exact ⟨(hg.sound.recorded _).mpr ⟨htap, _, hsw, rfl⟩, (hg.sound.fds _ _ hsw htap).mp rfl⟩

theorem run_good (hsize : 0 < bd.size) (hfits : bd.size < bd.lengths) {events : List Event}
    (hg : Good p) (hfair : Meets (TapTraffic.step bd) (Fair bd) p events) :
    ∃ q, run (TapTraffic.step bd) p events = some q ∧ Good q :=
  progress_of_meets (fun _ _ hg hf => hg.step hsize hfits hf) hg hfair

end Runs

def smallBuffers : Build := ⟨0x10000, 512, id⟩

def oneFrame : Input := ⟨fun k => if k = 0 then [10, 11, 12, 13] else [], fun _ => some [1, 2]⟩

def emptyBuffer : Buffer := ⟨fun _ => 0, 0, 0, false, false, 0, 0, 0, 0⟩

def oneTap : List Event :=
  [.act (.connect 1 (allDone 5 6 9)), .readable 5, .rx oneFrame, .tx [(20, 64)]]

theorem oneFrame_supplied {s : RxState} (hrx : s.rxBuffers = [])
    (hclear : ∀ b, Clear (s.buffers b)) : Supplied smallBuffers oneFrame 0 s := by
  have hlater : ∀ j, j ≠ 0 → oneFrame.allocated j = [] := fun j hj => if_neg hj
  constructor
  case nodup =>
    intro j _
    by_cases h : j = 0
    · subst h
      decide
    · rw [hlater j h]
      exact List.nodup_nil
  case apart =>
    rw [hrx]
    exact fun _ _ _ _ => List.not_mem_nil
  case disjoint =>
    intro i j hij b hi hj
    by_cases h : i = 0
    · rw [hlater j (by omega)] at hj
      exact List.not_mem_nil hj
    · rw [hlater i h] at hi
      exact List.not_mem_nil hi
  case clear => exact fun _ _ b _ => hclear b
  case bytes =>
    intro j bytes h
    obtain rfl := Option.some.inj h
    decide

end Vppsb.TapTraffic
