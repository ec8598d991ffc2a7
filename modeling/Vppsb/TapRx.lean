import Vppsb.TapLookups
import Vppsb.VlibBuffer

namespace Vppsb.TapRx

open Vppsb.TapLookups Vppsb.VlibBuffer

def mtu : Nat := 1500
def numBuffersToAlloc : Nat := 32

def mtuBuffers (size : Nat) : Nat := (mtu + size - 1) / size

/-- The part of `tap_inject_main_t` that is used, with the buffers and the frames
that have been put to nodes. -/
structure RxState where
  im : TapInjectMain
  rxBuffers : List Nat
  buffers : Nat → Buffer
  sent : List (Nat × List Nat)

structure RxResult where
  state : RxState
  count : Nat
  warning : Option String

/-- The first buffer, before the rest of the chain is configured. -/
def firstBuffer (lengths swIfIndex : Nat) (nBytes nBytesLeft : Int) (b : Buffer) : Buffer :=
  let b := { b with swIfIndexRx := swIfIndex, swIfIndexTx := swIfIndex }
  let b :=
    if 0 < nBytesLeft then
      { b with totalLengthNotIncludingFirstBuffer := u32 nBytesLeft, totalLengthValid := true }
    else b
  { b with currentLength := lengthField lengths nBytes }

def linkBuffers (lengths size prev next : Nat) (left : Int) (m : Nat → Buffer) : Nat → Buffer :=
  let m := Function.update m prev
    { m prev with
      currentLength := lengthField lengths size
      nextPresent := true
      nextBuffer := next }
  Function.update m next { m next with currentLength := lengthField lengths left }

/-- The loop over the remaining buffers, of which `i - 1` have been configured.
Undefined where the source would reach over the end of `bi`. -/
def chainLoop (lengths size : Nat) :
    List Nat → Nat → Nat → Int → (Nat → Buffer) → Option (Nat × (Nat → Buffer))
  | [], _, i, left, m => if 0 < left then none else some (i, m)
  | next :: rest, prev, i, left, m =>
    if 0 < left then
      chainLoop lengths size rest next (i + 1) (left - size)
        (linkBuffers lengths size prev next left m)
    else some (i, m)

/-- `allocated` are the buffers that the free list has, and `readv` returns the
bytes of a packet or fails. -/
def tapRx (lengths size : Nat) (outputNodeIndex : Nat → Nat) (allocated : List Nat)
    (readv : Option (List UInt8)) (s : RxState) (fd : Nat) : Option RxResult :=
  let swIfIndex := tapInjectLookupSwIfIndexFromTapFd s.im fd
  if swIfIndex = noIndex then some ⟨s, 0, none⟩
  else
    let s :=
      if s.rxBuffers.length < mtuBuffers size then
        { s with rxBuffers := s.rxBuffers ++ allocated.take numBuffersToAlloc }
      else s
    if s.rxBuffers.length < mtuBuffers size then some ⟨s, 0, some "failed to allocate buffers"⟩
    else
      -- the buffers are filled from the end of the list
      let bi := s.rxBuffers.reverse.take (mtuBuffers size)
      match readv, bi with
      | none, _ => some ⟨s, 0, some "readv failed"⟩
      | some _, [] => none
      | some bytes, first :: rest => do
        let left : Int := bytes.length - size
        let m := readvInto size bi bytes s.buffers
        let m := Function.update m first (firstBuffer lengths swIfIndex bytes.length left (m first))
        let r ← chainLoop lengths size rest first 1 left m
        some
          { state :=
              { s with
                rxBuffers := s.rxBuffers.take (s.rxBuffers.length - r.1)
                buffers := r.2
                sent := s.sent ++ [(outputNodeIndex swIfIndex, [first])] }
            count := 1
            warning := none }

/-- What the call has done with a packet of so many bytes: it has sent one chain
of the buffers that were read into, with those bytes in it, and has taken just
these buffers off the list. -/
structure Received (size : Nat) (outputNodeIndex : Nat → Nat) (s : RxState) (fd : Nat)
    (bytes : List UInt8) (first : Nat) (rest : List Nat) (r : RxResult) : Prop where
  count : r.count = 1
  leading : first :: rest = s.rxBuffers.reverse.take ((bytes.length + size - 1) / size)
  sent : r.state.sent = s.sent ++
    [(outputNodeIndex (tapInjectLookupSwIfIndexFromTapFd s.im fd), [first])]
  chain : Chain r.state.buffers size bytes.length (first :: rest)
  sum : ((first :: rest).map (fun b => (r.state.buffers b).currentLength)).sum = bytes.length
  total : (r.state.buffers first).totalLengthValid = true →
    ((r.state.buffers first).totalLengthNotIncludingFirstBuffer : Int) =
      bytes.length - (r.state.buffers first).currentLength
  bytes : payload r.state.buffers (first :: rest) = bytes
  taken : r.state.rxBuffers ++ (first :: rest).reverse = s.rxBuffers
  kept : ∀ b, b ∉ first :: rest → r.state.buffers b = s.buffers b

section Chains

variable {lengths size : Nat}

section Link

variable {prev next : Nat} {left : Int} {m : Nat → Buffer}

theorem linkBuffers_prev (hne : prev ≠ next) :
    linkBuffers lengths size prev next left m prev = { m prev with
      currentLength := lengthField lengths size
      nextPresent := true
      nextBuffer := next } := by
  rw [linkBuffers, Function.update_of_ne hne, Function.update_self]

theorem linkBuffers_next (hne : prev ≠ next) :
    linkBuffers lengths size prev next left m next =
      { m next with currentLength := lengthField lengths left } := by
  rw [linkBuffers, Function.update_self, Function.update_of_ne hne.symm]

theorem linkBuffers_other {b : Nat} (hp : b ≠ prev) (hn : b ≠ next) :
    linkBuffers lengths size prev next left m b = m b := by
  rw [linkBuffers, Function.update_of_ne hn, Function.update_of_ne hp]

theorem linkBuffers_clear (hne : prev ≠ next) {b : Nat} (hb : b ≠ prev) :
    (linkBuffers lengths size prev next left m b).nextPresent = (m b).nextPresent := by
  by_cases hbn : b = next
  · rw [hbn, linkBuffers_next hne]
  · rw [linkBuffers_other hb hbn]

theorem linkBuffers_frame (hne : prev ≠ next) (b : Nat) :
    linkBuffers lengths size prev next left m b = { m b with
      currentLength := (linkBuffers lengths size prev next left m b).currentLength
      nextPresent := (linkBuffers lengths size prev next left m b).nextPresent
      nextBuffer := (linkBuffers lengths size prev next left m b).nextBuffer } := by
  by_cases hp : b = prev
  · rw [hp, linkBuffers_prev hne]
  · by_cases hn : b = next
    · rw [hn, linkBuffers_next hne]
    · rw [linkBuffers_other hp hn]

end Link

theorem chainLoop_last (hfits : size < lengths) (rest : List Nat) {prev i total : Nat}
    {m : Nat → Buffer} (hpos : 0 < total) (hlast : total ≤ size)
    (hlen : (m prev).currentLength = lengthField lengths total)
    (hclear : (m prev).nextPresent = false) :
    chainLoop lengths size rest prev i (total - size) m = some (i, m) ∧ Chain m size total [prev] := by
  rw [lengthField_of_lt (by omega)] at hlen
  refine ⟨?_, .last total prev hpos hlast hlen hclear⟩
  cases rest with
  | nil => rw [chainLoop, if_neg (by omega)]
  | cons next rest => rw [chainLoop, if_neg (by omega)]

/-- The loop chains `prev` with as many of the other buffers as `total` bytes
take. What it writes for a length that is too long is written again. -/
theorem chainLoop_spec (hfits : size < lengths) (rest : List Nat)
    {prev i total : Nat} {m : Nat → Buffer} (hn : (prev :: rest).Nodup) (hpos : 0 < total)
    (hle : total ≤ (rest.length + 1) * size)
    (hlen : (m prev).currentLength = lengthField lengths total)
    (hclear : ∀ b ∈ prev :: rest, (m b).nextPresent = false) :
    ∃ k m', chainLoop lengths size rest prev i (total - size) m = some (i + k, m') ∧
      k ≤ rest.length ∧ Chain m' size total (prev :: rest.take k) ∧
      (∀ b, b ∉ prev :: rest.take k → m' b = m b) ∧
      ∀ b, m' b = { m b with
        currentLength := (m' b).currentLength
        nextPresent := (m' b).nextPresent
        nextBuffer := (m' b).nextBuffer } := by
  induction rest generalizing prev i total m with
  | nil =>
    have hlast : total ≤ size := by simpa using hle
    obtain ⟨hrun, hchain⟩ :=
      chainLoop_last (i := i) hfits [] hpos hlast hlen (hclear prev List.mem_cons_self)
    exact ⟨0, m, hrun, Nat.le_refl 0, hchain, fun _ _ => rfl, fun _ => rfl⟩
  | cons next rest ih =>
    by_cases hlast : total ≤ size
    · obtain ⟨hrun, hchain⟩ :=
        chainLoop_last (i := i) hfits (next :: rest) hpos hlast hlen (hclear prev List.mem_cons_self)
      exact ⟨0, m, hrun, Nat.zero_le _, hchain, fun _ _ => rfl, fun _ => rfl⟩
    · obtain ⟨hprev, hn'⟩ := List.nodup_cons.mp hn
      obtain ⟨hne, hrest⟩ := List.ne_and_not_mem_of_not_mem_cons hprev
      obtain ⟨left, rfl⟩ : ∃ left, total = size + left := ⟨total - size, by omega⟩
      have hleft : ((size + left : Nat) : Int) - size = left := by omega
      have hle' : left ≤ (rest.length + 1) * size := by
        rw [List.length_cons, Nat.succ_mul] at hle
        omega
      have hlen' : (linkBuffers lengths size prev next left m next).currentLength =
          lengthField lengths left := by rw [linkBuffers_next hne]
      have hclear' : ∀ b ∈ next :: rest,
          (linkBuffers lengths size prev next left m b).nextPresent = false := by
        intro b hb
        rw [linkBuffers_clear hne fun h => hprev (h ▸ hb)]
        exact hclear b (List.mem_cons_of_mem _ hb)
      obtain ⟨k, m', hrun, hk, hchain, hkept, hframe⟩ := ih (i := i + 1) hn' (by omega) hle' hlen' hclear'
      have hfull : m' prev = linkBuffers lengths size prev next left m prev :=
        hkept prev fun h => hprev (List.mem_cons.mpr ((List.mem_cons.mp h).imp_right List.mem_of_mem_take))
      rw [linkBuffers_prev hne] at hfull
      refine ⟨k + 1, m', ?_, Nat.succ_le_succ hk, ?_, ?_, ?_⟩
      · rw [chainLoop, if_pos (by omega), hleft, hrun, Nat.add_right_comm, Nat.add_assoc]
      · rw [List.take_succ_cons]
        refine .more left prev next _ ?_ ?_ ?_ hchain
        · rw [hfull]
          exact lengthField_of_lt hfits
        · rw [hfull]
        · rw [hfull]
      · intro b hb
        rw [List.take_succ_cons] at hb
        obtain ⟨hbp, hb'⟩ := List.ne_and_not_mem_of_not_mem_cons hb
        rw [hkept b hb', linkBuffers_other hbp (List.ne_of_not_mem_cons hb')]
      · intro b
        rw [hframe b, linkBuffers_frame hne b]

end Chains

theorem mtuBuffers_pos {size : Nat} (hsize : 0 < size) : 0 < mtuBuffers size := by
  rw [mtuBuffers, mtu]
  exact Nat.div_pos (by omega) hsize

theorem length_lt {size n : Nat} (hle : n ≤ mtuBuffers size * size) (hn : size < n) : n < 3000 := by
  have hmul : mtuBuffers size * size ≤ mtu + size - 1 := Nat.div_mul_le_self _ _
  have hsmall : size < mtu := by
    by_contra hge
    rw [mtuBuffers, mtu] at hle
    rw [mtu] at hge
    have hone : (1500 + size - 1) / size ≤ 1 := by
      refine Nat.lt_succ_iff.mp (Nat.div_lt_of_lt_mul ?_)
      omega
    have hmul' : (1500 + size - 1) / size * size ≤ 1 * size := Nat.mul_le_mul_right size hone
    omega
  rw [mtu] at hmul hsmall
  omega

section First

variable {lengths swIfIndex : Nat} {nBytes left : Int} {b : Buffer}

theorem firstBuffer_same :
    (firstBuffer lengths swIfIndex nBytes left b).data = b.data ∧
      (firstBuffer lengths swIfIndex nBytes left b).nextPresent = b.nextPresent := by
  rw [firstBuffer]
  split <;> exact ⟨rfl, rfl⟩

theorem firstBuffer_total (hclear : b.totalLengthValid = false)
    (hv : (firstBuffer lengths swIfIndex nBytes left b).totalLengthValid = true) :
    0 < left ∧
      (firstBuffer lengths swIfIndex nBytes left b).totalLengthNotIncludingFirstBuffer = u32 left := by
  rw [firstBuffer] at hv ⊢
  by_cases hleft : 0 < left
  · rw [if_pos hleft]
    exact ⟨hleft, rfl⟩
  · simp only [if_neg hleft, hclear] at hv
    exact absurd hv (by decide)

end First

def begun (lengths size swIfIndex first : Nat) (bi : List Nat) (bytes : List UInt8)
    (m : Nat → Buffer) : Nat → Buffer :=
  Function.update (readvInto size bi bytes m) first
    (firstBuffer lengths swIfIndex bytes.length (bytes.length - size) (readvInto size bi bytes m first))

section Begun

variable {lengths size swIfIndex first : Nat} {bi : List Nat} {bytes : List UInt8} {m : Nat → Buffer}

theorem begun_first : begun lengths size swIfIndex first bi bytes m first =
    firstBuffer lengths swIfIndex bytes.length (bytes.length - size)
      (readvInto size bi bytes m first) := by
  rw [begun, Function.update_self]

theorem begun_other {b : Nat} (hb : b ≠ first) :
    begun lengths size swIfIndex first bi bytes m b = readvInto size bi bytes m b := by
  rw [begun, Function.update_of_ne hb]

theorem begun_same (b : Nat) :
    (begun lengths size swIfIndex first bi bytes m b).data = (readvInto size bi bytes m b).data ∧
      (begun lengths size swIfIndex first bi bytes m b).nextPresent = (m b).nextPresent := by
  have hpresent : (readvInto size bi bytes m b).nextPresent = (m b).nextPresent := by
    rw [readvInto_data]
  by_cases hb : b = first
  · rw [hb] at hpresent ⊢
    rw [begun_first]
    exact ⟨firstBuffer_same.1, firstBuffer_same.2.trans hpresent⟩
  · rw [begun_other hb]
    exact ⟨rfl, hpresent⟩

theorem begun_total (hclear : (m first).totalLengthValid = false)
    (hle : bytes.length ≤ mtuBuffers size * size)
    (hv : (begun lengths size swIfIndex first bi bytes m first).totalLengthValid = true) :
    size < bytes.length ∧
      ((begun lengths size swIfIndex first bi bytes m first).totalLengthNotIncludingFirstBuffer : Int) =
        bytes.length - size := by
  have hread : (readvInto size bi bytes m first).totalLengthValid = false := by
    rw [readvInto_data]
    exact hclear
  rw [begun_first] at hv ⊢
  obtain ⟨hleft, htotal⟩ := firstBuffer_total hread hv
  have hlt : size < bytes.length := by omega
  have hshort := length_lt hle hlt
  rw [htotal, u32]
  omega

end Begun

theorem exists_leading {size : Nat} (hsize : 0 < size) {rx : List Nat}
    (hlen : mtuBuffers size ≤ rx.length) (hn : rx.Nodup) :
    ∃ first rest, rx.reverse.take (mtuBuffers size) = first :: rest ∧
      rest.length + 1 = mtuBuffers size ∧ (first :: rest).Nodup ∧ ∀ b ∈ first :: rest, b ∈ rx := by
  have hbi : (rx.reverse.take (mtuBuffers size)).length = mtuBuffers size := by
    rw [List.length_take, List.length_reverse, Nat.min_eq_left hlen]
  obtain ⟨first, rest, hcons⟩ := List.exists_cons_of_length_pos
    (hbi.symm ▸ mtuBuffers_pos hsize : 0 < (rx.reverse.take (mtuBuffers size)).length)
  refine ⟨first, rest, hcons, ?_, ?_, fun b hb => ?_⟩
  · rw [← hbi, hcons, List.length_cons]
  · rw [← hcons]
    exact (List.pairwise_reverse.mpr (hn.imp Ne.symm)).sublist (List.take_sublist _ _)
  · rw [← hcons] at hb
    exact List.mem_reverse.mp (List.mem_of_mem_take hb)

theorem leading_taken {rx : List Nat} {n first k : Nat} {rest : List Nat}
    (hcons : rx.reverse.take n = first :: rest) (hk : k ≤ rest.length) :
    first :: rest.take k = rx.reverse.take (k + 1) ∧
      rx.take (rx.length - (1 + k)) ++ (first :: rest.take k).reverse = rx := by
  have hn : rest.length + 1 ≤ n := by
    rw [← List.length_cons (a := first), ← hcons]
    exact List.length_take_le _ _
  have hlead : first :: rest.take k = rx.reverse.take (k + 1) := by
    rw [← List.take_succ_cons, ← hcons, List.take_take, Nat.min_eq_left (by omega)]
  refine ⟨hlead, ?_⟩
  rw [hlead, List.take_reverse, List.reverse_reverse, Nat.add_comm 1 k]
  exact List.take_append_drop _ _

/-- Every packet that fits in the buffers is sent whole, in the buffers that it
takes and no other ones. -/
theorem tapRx_receives (lengths size : Nat) (outputNodeIndex : Nat → Nat) (allocated : List Nat)
    (s : RxState) (fd : Nat) (bytes : List UInt8) (hsize : 0 < size) (hfits : size < lengths)
    (htap : tapInjectLookupSwIfIndexFromTapFd s.im fd ≠ noIndex)
    (hlen : mtuBuffers size ≤ s.rxBuffers.length) (hn : s.rxBuffers.Nodup)
    (hclear : ∀ b ∈ s.rxBuffers,
      (s.buffers b).nextPresent = false ∧ (s.buffers b).totalLengthValid = false)
    (hpos : 0 < bytes.length) (hle : bytes.length ≤ mtuBuffers size * size) :
    ∃ r first rest, tapRx lengths size outputNodeIndex allocated (some bytes) s fd = some r ∧
      Received size outputNodeIndex s fd bytes first rest r := by
  obtain ⟨first, rest, hcons, hbi, hnodup, hmem⟩ := exists_leading hsize hlen hn
  obtain ⟨sw, hsw⟩ : ∃ sw, sw = tapInjectLookupSwIfIndexFromTapFd s.im fd := ⟨_, rfl⟩
  obtain ⟨m, hm⟩ : ∃ m, m = begun lengths size sw first (first :: rest) bytes s.buffers := ⟨_, rfl⟩
  have hsame : ∀ b, (m b).data = (readvInto size (first :: rest) bytes s.buffers b).data ∧
      (m b).nextPresent = (s.buffers b).nextPresent := by
    intro b
    rw [hm]
    exact begun_same b
  have hfirst : (m first).currentLength = lengthField lengths bytes.length := by
    rw [hm, begun_first, firstBuffer]
  have hclear' : ∀ b ∈ first :: rest, (m b).nextPresent = false :=
    fun b hb => (hsame b).2.trans (hclear b (hmem b hb)).1
  obtain ⟨k, m', hrun, hk, hchain, hkept, hframe⟩ := chainLoop_spec hfits rest (i := 1) hnodup hpos
    (hbi.symm ▸ hle) hfirst hclear'
  have hcount : k + 1 = (bytes.length + size - 1) / size := by
    rw [← hchain.length hsize, List.length_cons, List.length_take, Nat.min_eq_left hk]
  obtain ⟨hlead, htaken⟩ := leading_taken hcons hk
  have hdata : ∀ b, (m' b).data = (readvInto size (first :: rest) bytes s.buffers b).data := by
    intro b
    rw [← (hsame b).1, hframe b]
  have htotal : (m' first).totalLengthValid = true →
      ((m' first).totalLengthNotIncludingFirstBuffer : Int) =
        bytes.length - (m' first).currentLength := by
    intro hvalid
    rw [hframe first, hm] at hvalid
    obtain ⟨hlt, htotal⟩ := begun_total (hclear first (hmem first List.mem_cons_self)).2 hle hvalid
    rw [hchain.head_full hlt, hframe first, hm]
    exact htotal
  have hrest : ∀ b, b ∉ first :: rest.take k → m' b = s.buffers b := by
    intro b hb
    have hbk : b ∉ (first :: rest).take ((bytes.length + size - 1) / size) := by
      rw [← hcount, List.take_succ_cons]
      exact hb
    rw [hkept b hb, hm, begun_other (List.ne_of_not_mem_cons hb), readvInto_kept hsize hbk]
  have hr : tapRx lengths size outputNodeIndex allocated (some bytes) s fd = some
      { state :=
          { s with
            rxBuffers := s.rxBuffers.take (s.rxBuffers.length - (1 + k))
            buffers := m'
            sent := s.sent ++ [(outputNodeIndex sw, [first])] }
        count := 1
        warning := none } := by
    have hno : ¬ s.rxBuffers.length < mtuBuffers size := Nat.not_lt.mpr hlen
    rw [hm, begun, hsw] at hrun
    simp only [tapRx, if_neg htap, if_neg hno, hcons, hrun, hsw, Option.bind_eq_bind,
      Option.bind_some]
  refine ⟨_, first, rest.take k, hr, ?_⟩
  constructor
  case count => rfl
  case leading => rw [hlead, hcount]
  case sent => rw [hsw]
  case chain => exact hchain
  case sum => exact hchain.sum
  case total => exact htotal
  case bytes =>
    exact payload_readvInto hnodup hchain
      (List.cons_prefix_cons.mpr ⟨rfl, List.take_prefix k rest⟩) fun b _ => hdata b
  case taken => exact htaken
  case kept => exact hrest

def fourBuffers : RxState where
  im := tapInjectInsertTap start.im 1 5 9
  rxBuffers := [10, 11, 12, 13]
  buffers := fun _ => ⟨fun _ => 0, 0, 0, false, false, 0, 0, 0, 0⟩
  sent := []

theorem tapRx_receives_sample :
    ∃ r first rest, tapRx 0x10000 512 id [] (some (List.replicate 600 1)) fourBuffers 5 = some r ∧
      Received 512 id fourBuffers 5 (List.replicate 600 1) first rest r := by
  refine tapRx_receives 0x10000 512 id [] fourBuffers 5 (List.replicate 600 1) (by decide)
    (by decide) (by decide) (by decide) (by decide) (fun _ _ => ⟨rfl, rfl⟩) ?_ ?_
  · rw [List.length_replicate]
    decide
  · rw [List.length_replicate]
    decide

end Vppsb.TapRx
