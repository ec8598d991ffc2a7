import Vppsb.RtnlStream

namespace Vppsb.RtnlBuffer

open Vppsb.NetnsEntry Vppsb.NetnsTables Vppsb.RtnlStream

def rtnlBuffsiz : Nat := 16384

structure Received where
  bytes : List UInt8
  fits : bytes.length ≤ rtnlBuffsiz

def sizeofNlmsghdr : Nat := 16

section Header

variable (b : Received) (off : Nat)

def byteAt : Nat := (b.bytes.getD off 0).toNat

def wordAt : Nat := byteAt b off + 256 * byteAt b (off + 1)

def nlmsgLen : Nat := wordAt b off + 65536 * wordAt b (off + 2)

def nlmsgType : Nat := wordAt b (off + 4)

def nlmsgFlags : UInt16 := UInt16.ofNat (wordAt b (off + 6))

def nlmsgSeq : UInt32 := UInt32.ofNat (wordAt b (off + 8) + 65536 * wordAt b (off + 10))

end Header

/-- `NLMSG_ALIGN` of an `nlmsg_len`, which is computed in 32 bits. -/
def nlmsgAlign (n : Nat) : Nat := (n + 3) % 4294967296 / 4 * 4

/-- What is outside of the buffer: how the attributes are parsed, and whether the
dump request that a message leads to can be sent. -/
structure Env where
  parse : (Nat → UInt8) → Nat → Option Rtas
  ok : Nat → Bool

def messageAt (env : Env) (b : Received) (off : Nat) : Arrival :=
  let data := fun i => b.bytes.getD (off + sizeofNlmsghdr + i) 0
  { msg :=
      { nlmsgLen := nlmsgLen b off
        nlmsgType := nlmsgType b off
        data := data
        parsed := env.parse data (nlmsgLen b off)
        nlmsgFlags := nlmsgFlags b off
        nlmsgSeq := nlmsgSeq b off }
    ok := env.ok off }

/-- The end of the loop: the stream, whether the function returns `-1`, and the
offsets of the headers that have been passed to `rtnl_ns_recv`. -/
structure LoopEnd where
  sys : Sys
  failed : Bool
  headers : List Nat

/-- The message loop of `rtnl_process_read`. The first number bounds the passes,
`off` is where `hdr` points to. -/
def messageLoop (env : Env) (b : Received) : Nat → Nat → Int → Sys → Option LoopEnd
  | 0, _, len, s => if len ≤ 0 then some ⟨s, false, []⟩ else none
  | fuel + 1, off, len, s =>
    if len ≤ 0 then some ⟨s, false, []⟩
    else if sizeofNlmsghdr > len.toNat ∨ nlmsgLen b off > len.toNat then some ⟨s, true, []⟩
    else
      let r := rtnlNsRecv s (messageAt env b off)
      if r.2 ≠ 0 then some ⟨r.1, true, [off]⟩
      else
        let aligned := nlmsgAlign (nlmsgLen b off)
        (messageLoop env b fuel (off + aligned) (len - aligned) r.1).map (fun e =>
          { e with headers := off :: e.headers })

def processBuffer (env : Env) (b : Received) (fuel : Nat) (s : Sys) : Option LoopEnd :=
  messageLoop env b fuel 0 b.bytes.length s

/-- The loop ends, and what it passes on are whole messages inside of the buffer. -/
def Safe (env : Env) (b : Received) (s : Sys) : Prop :=
  ∃ fuel e, processBuffer env b fuel s = some e ∧ ∀ off ∈ e.headers,
    sizeofNlmsghdr ≤ nlmsgLen b off ∧ off + nlmsgLen b off ≤ b.bytes.length

/-- There is a header at the offset, and its length is inside of the buffer. -/
def Inside (b : Received) (off : Nat) : Prop :=
  off + sizeofNlmsghdr ≤ b.bytes.length ∧ off + nlmsgLen b off ≤ b.bytes.length

def tooShort (b : Received) (off : Nat) : Bool :=
  decide (nlmsgType b off = nlmsgError) && decide (sizeSub (nlmsgLen b off) 16 < 20)

/-- The offset of the `k`-th header behind an offset, as the lengths lead there. -/
def position (b : Received) : Nat → Nat → Nat
  | off, 0 => off
  | off, k + 1 => position b (off + nlmsgAlign (nlmsgLen b off)) k

/-- No header has a length below its own size, up to the first one that does not
fit or is refused. -/
def Framed (b : Received) (off : Nat) : Prop :=
  ∀ k, (∀ j, j < k → Inside b (position b off j) ∧ tooShort b (position b off j) = false) →
    Inside b (position b off k) → sizeofNlmsghdr ≤ nlmsgLen b (position b off k)

variable {env : Env} {b : Received} {off fuel : Nat} {s : Sys} {e : LoopEnd}

theorem nlmsgAlign_bounds {n : Nat} (hn : n ≤ rtnlBuffsiz) :
    n ≤ nlmsgAlign n ∧ nlmsgAlign n < n + 4 := by
  rw [nlmsgAlign]
  rw [rtnlBuffsiz] at hn
  omega

theorem nsRecv_tooShort (env : Env) (s : Sys) (off : Nat) :
    (rtnlNsRecv s (messageAt env b off)).2 ≠ 0 ↔ tooShort b off = true := by
  rw [nsRecv_result, refused, tooShort, rtnlRcvError]
  have hsplit : (if datalen (messageAt env b off).msg.toNlmsg < 20 then (-1 : Int) else 0) ≠ 0 ↔
      sizeSub (nlmsgLen b off) 16 < 20 := by
    rw [datalen]
    split
    · exact iff_of_true (by decide) (by assumption)
    · exact iff_of_false (by decide) (by assumption)
  simp only [Bool.and_eq_true, decide_eq_true_iff, hsplit]
  rfl

section Passes

def loopFrom (env : Env) (b : Received) (fuel off : Nat) (s : Sys) : Option LoopEnd :=
  messageLoop env b fuel off ((b.bytes.length : Int) - off) s

theorem Inside.lt (h : Inside b off) : off < b.bytes.length :=
  Nat.lt_of_lt_of_le (Nat.lt_add_of_pos_right (by decide)) h.1

theorem loop_past (h : b.bytes.length ≤ off) : loopFrom env b fuel off s = some ⟨s, false, []⟩ := by
  cases fuel with
  | zero => rw [loopFrom, messageLoop, if_pos (by omega)]
  | succ fuel => rw [loopFrom, messageLoop, if_pos (by omega)]

theorem loop_zero (h : off < b.bytes.length) : loopFrom env b 0 off s = none := by
  rw [loopFrom, messageLoop, if_neg (by omega)]

theorem test_iff (h : off < b.bytes.length) :
    (sizeofNlmsghdr > ((b.bytes.length : Int) - off).toNat ∨
      nlmsgLen b off > ((b.bytes.length : Int) - off).toNat) ↔ ¬ Inside b off := by
  rw [Int.toNat_sub, Inside]
  omega

theorem loop_outside (h : off < b.bytes.length) (hout : ¬ Inside b off) :
    loopFrom env b (fuel + 1) off s = some ⟨s, true, []⟩ := by
  rw [loopFrom, messageLoop, if_neg (by omega)]
  exact if_pos ((test_iff h).mpr hout)

theorem loop_refused (hin : Inside b off) (hshort : tooShort b off = true) :
    loopFrom env b (fuel + 1) off s =
      some ⟨(rtnlNsRecv s (messageAt env b off)).1, true, [off]⟩ := by
  have hlt := hin.lt
  rw [loopFrom, messageLoop, if_neg (by omega)]
  rw [if_neg (fun h => (test_iff hlt).mp h hin), if_pos ((nsRecv_tooShort env s off).mpr hshort)]

theorem loop_next (hin : Inside b off) (hlong : tooShort b off = false) :
    loopFrom env b (fuel + 1) off s =
      (loopFrom env b fuel (off + nlmsgAlign (nlmsgLen b off))
        (rtnlNsRecv s (messageAt env b off)).1).map (fun e =>
          { e with headers := off :: e.headers }) := by
  have hlt := hin.lt
  have hret : ¬ (rtnlNsRecv s (messageAt env b off)).2 ≠ 0 := by
    rw [nsRecv_tooShort, hlong]
    exact Bool.false_ne_true
  have hlen : (b.bytes.length : Int) - off - nlmsgAlign (nlmsgLen b off) =
      b.bytes.length - (off + nlmsgAlign (nlmsgLen b off) : Nat) := by
    omega
  rw [loopFrom, messageLoop, if_neg (by omega)]
  rw [if_neg (fun h => (test_iff hlt).mp h hin), if_neg hret, loopFrom, ← hlen]

end Passes

theorem position_mem (k : Nat) {off fuel : Nat} {s : Sys} {e : LoopEnd}
    (he : loopFrom env b fuel off s = some e)
    (hbefore : ∀ j, j < k → Inside b (position b off j) ∧ tooShort b (position b off j) = false)
    (hin : Inside b (position b off k)) : position b off k ∈ e.headers := by
  induction k generalizing off fuel s e with
  | zero =>
    replace hin : Inside b off := hin
    cases fuel with
    | zero =>
      rw [loop_zero hin.lt] at he
      exact absurd he.symm (Option.some_ne_none e)
    | succ fuel =>
      cases hshort : tooShort b off with
      | true =>
        rw [loop_refused hin hshort] at he
        exact Option.some.inj he ▸ List.mem_cons_self
      | false =>
        rw [loop_next hin hshort] at he
        obtain ⟨e', _, rfl⟩ := Option.map_eq_some_iff.mp he
        exact List.mem_cons_self
  | succ k ih =>
    obtain ⟨hfirst, hlong⟩ : Inside b off ∧ tooShort b off = false := hbefore 0 (Nat.succ_pos k)
    cases fuel with
    | zero =>
      rw [loop_zero hfirst.lt] at he
      exact absurd he.symm (Option.some_ne_none e)
    | succ fuel =>
      rw [loop_next hfirst hlong] at he
      obtain ⟨e', he', rfl⟩ := Option.map_eq_some_iff.mp he
      refine List.mem_cons_of_mem off (ih he' (fun j hj => ?_) hin)
      exact hbefore (j + 1) (Nat.succ_lt_succ hj)

theorem Framed.next (h : Framed b off) (hin : Inside b off) (hlong : tooShort b off = false) :
    Framed b (off + nlmsgAlign (nlmsgLen b off)) := by
  intro k hbefore hk
  refine h (k + 1) (fun j hj => ?_) hk
  cases j with
  | zero => exact ⟨hin, hlong⟩
  | succ j => exact hbefore j (Nat.lt_of_succ_lt_succ hj)

theorem framed_safe (fuel : Nat) {off : Nat} {s : Sys} (hfuel : b.bytes.length ≤ off + fuel)
    (h : Framed b off) : ∃ e, loopFrom env b fuel off s = some e ∧ ∀ off ∈ e.headers,
      sizeofNlmsghdr ≤ nlmsgLen b off ∧ off + nlmsgLen b off ≤ b.bytes.length := by
  induction fuel generalizing off s with
  | zero => exact ⟨_, loop_past hfuel, nofun⟩
  | succ fuel ih =>
    by_cases hpast : b.bytes.length ≤ off
    · exact ⟨_, loop_past hpast, nofun⟩
    by_cases hin : Inside b off
    · have hsize : sizeofNlmsghdr ≤ nlmsgLen b off := h 0 nofun hin
      cases hshort : tooShort b off with
      | true =>
        refine ⟨_, loop_refused hin hshort, fun g hg => ?_⟩
        obtain rfl := List.mem_singleton.mp hg
        exact ⟨hsize, hin.2⟩
      | false =>
        have hle : nlmsgLen b off ≤ rtnlBuffsiz :=
          Nat.le_trans (Nat.le_trans (Nat.le_add_left _ _) hin.2) b.fits
        have halign := (nlmsgAlign_bounds hle).1
        have hless : b.bytes.length ≤ off + nlmsgAlign (nlmsgLen b off) + fuel := by
          rw [sizeofNlmsghdr] at hsize
          omega
        obtain ⟨e, he, hall⟩ := ih (s := (rtnlNsRecv s (messageAt env b off)).1) hless
          (h.next hin hshort)
        refine ⟨_, by rw [loop_next hin hshort, he]; rfl, fun g hg => ?_⟩
        obtain rfl | hg := List.mem_cons.mp hg
        · exact ⟨hsize, hin.2⟩
        · exact hall g hg
    · exact ⟨_, loop_outside (Nat.not_le.mp hpast) hin, nofun⟩

/-- A message of length zero that is handed on is handed on for ever. -/
theorem zero_length_stuck (env : Env) (hin : Inside b off) (hlen : nlmsgLen b off = 0)
    (hlong : tooShort b off = false) (fuel : Nat) (s : Sys) : loopFrom env b fuel off s = none := by
  induction fuel generalizing s with
  | zero => exact loop_zero hin.lt
  | succ fuel ih =>
    have hstay : off + nlmsgAlign (nlmsgLen b off) = off := by
      rw [hlen]
      rfl
    rw [loop_next hin hlong, hstay, ih, Option.map_none]

theorem processBuffer_eq : processBuffer env b fuel s = loopFrom env b fuel 0 s := by
  rw [processBuffer, loopFrom, Int.natCast_zero, Int.sub_zero]

/-- A loop that ends handles the messages that it passes on as the stream does. -/
theorem loop_recvAll (fuel : Nat) {off : Nat} {s : Sys} {e : LoopEnd}
    (he : loopFrom env b fuel off s = some e) : ∃ stopped malformed,
      rtnlRecvAll s (e.headers.map (messageAt env b)) = (e.sys, stopped) ∧
      e.failed = (stopped || malformed) := by
  induction fuel generalizing off s e with
  | zero =>
    by_cases hpast : b.bytes.length ≤ off
    · rw [loop_past hpast] at he
      obtain rfl := Option.some.inj he
      exact ⟨false, false, rfl, rfl⟩
    · rw [loop_zero (Nat.not_le.mp hpast)] at he
      exact absurd he.symm (Option.some_ne_none e)
  | succ fuel ih =>
    by_cases hpast : b.bytes.length ≤ off
    · rw [loop_past hpast] at he
      obtain rfl := Option.some.inj he
      exact ⟨false, false, rfl, rfl⟩
    by_cases hin : Inside b off
    · cases hshort : tooShort b off with
      | true =>
        have hret := (nsRecv_tooShort env s off).mpr hshort
        rw [loop_refused hin hshort] at he
        obtain rfl := Option.some.inj he
        refine ⟨true, false, ?_, rfl⟩
        rw [List.map_singleton, rtnlRecvAll]
        exact if_pos hret
      | false =>
        have hret : ¬ (rtnlNsRecv s (messageAt env b off)).2 ≠ 0 := by
          rw [nsRecv_tooShort, hshort]
          exact Bool.false_ne_true
        rw [loop_next hin hshort] at he
        obtain ⟨e', he', rfl⟩ := Option.map_eq_some_iff.mp he
        obtain ⟨stopped, malformed, hrun, hfail⟩ := ih he'
        refine ⟨stopped, malformed, ?_, hfail⟩
        rw [List.map_cons, rtnlRecvAll]
        exact (if_neg hret).trans hrun
    · rw [loop_outside (Nat.not_le.mp hpast) hin] at he
      obtain rfl := Option.some.inj he
      exact ⟨false, true, rfl, rfl⟩

theorem processRead_buffer (rest : List Buffer)
    (he : processBuffer env b fuel (emit s (.recv s.ns.rtnlSocket)) = some e) :
    ∃ malformed, rtnlProcessRead s (⟨e.headers.map (messageAt env b), malformed⟩ :: rest) =
      if e.failed then e.sys else rtnlProcessRead e.sys rest := by
  rw [processBuffer_eq] at he
  obtain ⟨stopped, malformed, hrun, hfail⟩ := loop_recvAll fuel he
  refine ⟨malformed, ?_⟩
  rw [rtnlProcessRead, hrun, hfail]

/-- The loop ends and passes on whole messages only, if and only if no header that
it comes to has a length below the size of a header. -/
theorem processBuffer_safe (env : Env) (b : Received) (s : Sys) : Safe env b s ↔ Framed b 0 := by
  constructor
  · rintro ⟨fuel, e, he, hall⟩ k hbefore hin
    rw [processBuffer_eq] at he
    exact (hall _ (position_mem k he hbefore hin)).1
  · intro h
    obtain ⟨e, he, hall⟩ := framed_safe b.bytes.length (Nat.le_add_left _ _) h
    exact ⟨_, e, processBuffer_eq.trans he, hall⟩

def zeroHeader : Received := ⟨List.replicate 16 0, by decide⟩

theorem zero_header_never_ends :
    ¬ Safe ⟨fun _ _ => none, fun _ => true⟩ zeroHeader (fresh blank 0) := by
  rintro ⟨fuel, e, he, _⟩
  have hin : Inside zeroHeader 0 := ⟨by decide, by decide⟩
  have hstuck := zero_length_stuck ⟨fun _ _ => none, fun _ => true⟩ hin (by decide) (by decide)
    fuel (fresh blank 0)
  rw [processBuffer_eq, hstuck] at he
  exact absurd he.symm (Option.some_ne_none e)

end Vppsb.RtnlBuffer
