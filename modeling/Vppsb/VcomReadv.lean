import Mathlib.Algebra.Group.Nat.Defs
import Vppsb.VcomWritev

namespace Vppsb.VcomReadv

open Vppsb.VcomSockets Vppsb.VcomWritev
open Vppsb.VcomSelect (VcomSocketType einval)

def ssizeMax : Nat := 2 ^ 63 - 1

/-- A read returns an error, or the bytes that it stores. -/
abbrev Read := Except Int (List UInt8)

structure Filling where
  bufs : List (List UInt8)
  rv : Int
deriving DecidableEq

/-- One pass of the blocking loop over the vector, with the reads that are left. -/
structure Pass where
  bufs : List (List UInt8)
  total : Int
  rv : Int
  rest : List Read

def store (buf data : List UInt8) : List UInt8 := data ++ buf.drop data.length

/-- The first loop over the vector. No result where a read returns what it cannot: more
than it was asked for, or an error that is not negative. -/
def readPass : List (List UInt8) → List Read → Int → Int → Option Pass
  | [], reads, total, rv => some ⟨[], total, rv, reads⟩
  | _ :: _, [], _, _ => none
  | buf :: iov, .error e :: reads, total, _ =>
      if 0 ≤ e then none else some ⟨buf :: iov, total, e, reads⟩
  | buf :: iov, .ok data :: reads, total, _ =>
      if buf.length < data.length then none
      else if data.length < buf.length then
        some ⟨store buf data :: iov, total + data.length, data.length, reads⟩
      else
        (readPass iov reads (total + data.length) data.length).map
          (fun p => { p with bufs := store buf data :: p.bufs })

/-- The `do` loop of a blocking socket, at most `fuel` times. `EWOULDBLOCK` is
`EAGAIN`. -/
def readBlocking : Nat → List (List UInt8) → List Read → Int → Int → Option Filling
  | 0, _, _, _, _ => none
  | fuel + 1, iov, reads, total, rv =>
      match readPass iov reads total rv with
      | none => none
      | some p =>
          if p.rv = -eagain ∧ p.total = 0 then readBlocking fuel p.bufs p.rest p.total p.rv
          else if p.rest = [] then some ⟨p.bufs, p.total⟩
          else none

def readNonblocking : List (List UInt8) → List Read → Int → Option Filling
  | [], [], total => some ⟨[], total⟩
  | [], _ :: _, _ => none
  | _ :: _, [], _ => none
  | buf :: iov, .error e :: reads, total =>
      if 0 ≤ e ∨ reads ≠ [] then none
      else if 0 < total then some ⟨buf :: iov, total⟩
      else some ⟨buf :: iov, e⟩
  | buf :: iov, .ok data :: reads, total =>
      if buf.length < data.length then none
      else if data.length < buf.length then
        if reads ≠ [] then none else some ⟨store buf data :: iov, total + data.length⟩
      else
        (readNonblocking iov reads (total + data.length)).map
          (fun r => { r with bufs := store buf data :: r.bufs })

def lensFit : Nat → List (List UInt8) → Bool
  | _, [] => true
  | len, buf :: iov =>
      if ssizeMax - len < buf.length then false else lensFit (len + buf.length) iov

def unread (bufs : List (List UInt8)) (rv : Int) (reads : List Read) : Option Filling :=
  if reads = [] then some ⟨bufs, rv⟩ else none

def isBlocking (flags : Int32) : Bool := decide (flags &&& oNonblock = 0)

/-- `flags` is what `vcom_fcntl` returns, and `reads` are the reads that the call makes on
a session. There is no result where it makes others. -/
def vcomSocketReadv (s : VcomSocketMain) (fd : Int) (iov : Option (List (List UInt8)))
    (iovcnt : Int) (flags : Int32) (reads : Int → List Read) : Option Filling :=
  match boundSocket s fd with
  | .error e => some ⟨iov.getD [], e⟩
  | .ok vsock =>
      match iov with
      | none => unread [] (-einval) (reads vsock.sid)
      | some iov =>
          let used := iov.take iovcnt.toNat
          if iovcnt = 0 ∨ iovMax < iovcnt then unread iov (-einval) (reads vsock.sid)
          else if lensFit 0 used = false then unread iov (-einval) (reads vsock.sid)
          else if flags < 0 then unread iov flags.toInt (reads vsock.sid)
          else
            (if isBlocking flags then
              readBlocking ((reads vsock.sid).length + 1) used (reads vsock.sid) 0 flags.toInt
            else readNonblocking used (reads vsock.sid) 0).map
              (fun r => { r with bufs := r.bufs ++ iov.drop iovcnt.toNat })

def got : List Read → List UInt8
  | [] => []
  | .error _ :: reads => got reads
  | .ok data :: reads => data ++ got reads

/-- The buffers have taken the bytes, one after the other. -/
structure Filled (iov : List (List UInt8)) (data : List UInt8) (bufs : List (List UInt8)) :
    Prop where
  lengths : bufs.map List.length = iov.map List.length
  bytes : bufs.flatten = data ++ iov.flatten.drop data.length

def Retried (blocking : Bool) (e : Int) : Prop := blocking = true ∧ e = -eagain

structure ReadsRight (blocking : Bool) (iov : List (List UInt8)) (reads : List Read)
    (r : Filling) : Prop where
  filled : Filled iov (got reads) r.bufs
  count : got reads ≠ [] → r.rv = (got reads).length
  zero : r.rv = 0 → got reads = [] ∧ ∀ e, .error e ∈ reads → Retried blocking e
  failed : ∀ front e back, reads = front ++ .error e :: back → got front = [] →
    ¬ Retried blocking e → r.rv = e

/-- Before the first byte no read fails but to be tried again. -/
def OnlyAgain (reads : List Read) : Prop :=
  ∀ front e back, reads = front ++ .error e :: back → got front = [] → e = -eagain

variable {iov bufs bufs' : List (List UInt8)} {reads : List Read} {total rv : Int}

theorem got_append (xs ys : List Read) : got (xs ++ ys) = got xs ++ got ys := by
  induction xs with
  | nil => rfl
  | cons x xs ih =>
      cases x with
      | error e => exact ih
      | ok data => rw [List.cons_append, got, got, ih, List.append_assoc]

theorem Filled.refl (iov : List (List UInt8)) : Filled iov [] iov := ⟨rfl, rfl⟩

theorem Filled.trans {data : List UInt8} (h : Filled iov [] bufs) (h' : Filled bufs data bufs') :
    Filled iov data bufs' := by
  refine ⟨h'.lengths.trans h.lengths, ?_⟩
  rw [h'.bytes, h.bytes]
  rfl

theorem Filled.short {buf data : List UInt8} (h : data.length ≤ buf.length) :
    Filled (buf :: iov) data (store buf data :: iov) := by
  constructor
  · simp only [List.map_cons, store, List.length_append, List.length_drop]
    rw [Nat.add_sub_cancel' h]
  · rw [List.flatten_cons, List.flatten_cons, store, List.append_assoc,
      List.drop_append_of_le_length h]

theorem Filled.full {buf data d : List UInt8} (h : data.length = buf.length)
    (h' : Filled iov d bufs) : Filled (buf :: iov) (data ++ d) (store buf data :: bufs) := by
  have hs : store buf data = data := by
    rw [store, h, List.drop_length, List.append_nil]
  constructor
  · rw [hs, List.map_cons, List.map_cons, h'.lengths, h]
  · rw [hs, List.flatten_cons, List.flatten_cons, h'.bytes, List.append_assoc,
      List.length_append, h, List.drop_length_add_append]

theorem readPass_spec {p : Pass} (h : readPass iov reads total rv = some p) :
    ∃ made, reads = made ++ p.rest ∧ p.total = total + (got made).length ∧
      Filled iov (got made) p.bufs ∧ ∀ e, .error e ∈ made → e < 0 := by
  induction iov generalizing reads total rv p with
  | nil =>
      obtain rfl := Option.some.inj h
      exact ⟨[], rfl, (Int.add_zero _).symm, Filled.refl _, fun _ h => absurd h List.not_mem_nil⟩
  | cons buf iov ih =>
      obtain _ | ⟨x, reads⟩ := reads
      · exact absurd h.symm (Option.some_ne_none p)
      cases x with
      | error e =>
          rw [readPass] at h
          split at h
          · exact absurd h.symm (Option.some_ne_none p)
          · obtain rfl := Option.some.inj h
            refine ⟨[.error e], rfl, (Int.add_zero _).symm, Filled.refl _, fun e' he' => ?_⟩
            obtain rfl : e' = e := by simpa using he'
            omega
      | ok data =>
          rw [readPass] at h
          split at h
          · exact absurd h.symm (Option.some_ne_none p)
          split at h
          · obtain rfl := Option.some.inj h
            refine ⟨[.ok data], rfl, by simp [got], ?_, fun e' he' => ?_⟩
            · rw [got, got, List.append_nil]
              exact Filled.short (by omega)
            · exact absurd he' (by simp)
          · obtain ⟨q, hq, rfl⟩ := Option.map_eq_some_iff.mp h
            obtain ⟨made, rfl, ht, hf, he⟩ := ih hq
            refine ⟨.ok data :: made, rfl, ?_, ?_, ?_⟩
            · rw [got, List.length_append, ht]
              omega
            · exact Filled.full (by omega) hf
            · intro e he'
              exact he e (by simpa using he')

theorem readBlocking_spec {fuel : Nat} {r : Filling}
    (h : readBlocking fuel iov reads 0 rv = some r) :
    r.rv = (got reads).length ∧ Filled iov (got reads) r.bufs ∧
      ∀ e, .error e ∈ reads → e < 0 := by
  induction fuel generalizing iov reads rv with
  | zero => exact absurd h.symm (Option.some_ne_none r)
  | succ fuel ih =>
      rw [readBlocking] at h
      cases hp : readPass iov reads 0 rv with
      | none => rw [hp] at h; exact absurd h.symm (Option.some_ne_none r)
      | some p =>
          rw [hp] at h
          obtain ⟨made, hm, ht, hf, he⟩ := readPass_spec hp
          simp only at h
          split at h
          · next hagain =>
              -- the pass that is made again has read nothing
              have hnil : got made = [] := by
                rw [← List.length_eq_zero_iff]
                omega
              rw [hagain.2] at h
              obtain ⟨hrv, hf', he'⟩ := ih h
              rw [hnil] at hf
              rw [hm, got_append, hnil, List.nil_append]
              refine ⟨hrv, hf.trans hf', fun e h => ?_⟩
              obtain h | h := List.mem_append.mp h
              · exact he e h
              · exact he' e h
          · split at h
            · next hrest =>
                obtain rfl := Option.some.inj h
                rw [hm, hrest, List.append_nil]
                exact ⟨by rw [ht, Int.zero_add], hf, he⟩
            · exact absurd h.symm (Option.some_ne_none r)

/-- The reads of a non-blocking socket are successes, and then perhaps one error, which is
the value where nothing was read. -/
theorem readNonblocking_spec {r : Filling} (h0 : 0 ≤ total)
    (h : readNonblocking iov reads total = some r) :
    ∃ data : List (List UInt8), Filled iov data.flatten r.bufs ∧
      (reads = data.map .ok ∧ r.rv = total + data.flatten.length ∨
        ∃ e < 0, reads = data.map .ok ++ [.error e] ∧
          r.rv = if 0 < total + data.flatten.length then total + data.flatten.length else e) := by
  induction iov generalizing reads total r with
  | nil =>
      cases reads with
      | nil =>
          obtain rfl := Option.some.inj h
          exact ⟨[], Filled.refl _, .inl ⟨rfl, (Int.add_zero _).symm⟩⟩
      | cons x reads => exact absurd h.symm (Option.some_ne_none r)
  | cons buf iov ih =>
      obtain _ | ⟨x, reads⟩ := reads
      · exact absurd h.symm (Option.some_ne_none r)
      cases x with
      | error e =>
          rw [readNonblocking] at h
          split at h
          · exact absurd h.symm (Option.some_ne_none r)
          · next hne =>
              obtain ⟨he, rfl⟩ : e < 0 ∧ reads = [] := by
                simpa only [not_or, Int.not_le, not_not] using hne
              refine ⟨[], ?_, .inr ⟨e, he, rfl, ?_⟩⟩
              · split at h <;> (obtain rfl := Option.some.inj h; exact Filled.refl _)
              · simp only [List.flatten_nil, List.length_nil, Int.natCast_zero, Int.add_zero]
                split at h <;> obtain rfl := Option.some.inj h
                · next ht => exact (if_pos ht).symm
                · next ht => exact (if_neg ht).symm
      | ok data =>
          rw [readNonblocking] at h
          split at h
          · exact absurd h.symm (Option.some_ne_none r)
          split at h
          · split at h
            · exact absurd h.symm (Option.some_ne_none r)
            · next hlt hne =>
                obtain rfl : reads = [] := not_not.mp hne
                obtain rfl := Option.some.inj h
                refine ⟨[data], ?_, .inl ⟨rfl, by simp⟩⟩
                rw [List.flatten_singleton]
                exact Filled.short (by omega)
          · obtain ⟨q, hq, rfl⟩ := Option.map_eq_some_iff.mp h
            obtain ⟨ds, hf, hds⟩ := ih (by omega) hq
            have hlen : total + ((data :: ds).flatten.length : Int) =
                total + data.length + ds.flatten.length := by
              rw [List.flatten_cons, List.length_append]
              omega
            refine ⟨data :: ds, ?_, ?_⟩
            · rw [List.flatten_cons]
              exact Filled.full (by omega) hf
            · rw [hlen]
              obtain ⟨rfl, hrv⟩ | ⟨e, he, rfl, hrv⟩ := hds
              · exact .inl ⟨rfl, hrv⟩
              · exact .inr ⟨e, he, rfl, hrv⟩

theorem got_map_ok (data : List (List UInt8)) : got (data.map .ok) = data.flatten := by
  induction data with
  | nil => rfl
  | cons d data ih => rw [List.map_cons, got, ih, List.flatten_cons]

theorem readsRight_nil {blocking : Bool} (h : rv < 0) :
    ReadsRight blocking iov [] ⟨iov, rv⟩ where
  filled := Filled.refl _
  count h := absurd rfl h
  zero h0 := absurd h0 (by simp only; omega)
  failed front e back h := absurd h (by simp)

theorem error_split {data : List (List UInt8)} {front back : List Read} {e e' : Int}
    (h : data.map .ok ++ [.error e] = front ++ .error e' :: back) :
    front = data.map .ok ∧ e' = e := by
  obtain ⟨xs, rfl, hx⟩ | ⟨xs, hd, hx⟩ := List.append_eq_append_iff.mp h
  · cases xs with
    | nil => exact ⟨List.append_nil _, Except.error.inj (List.cons.inj hx).1.symm⟩
    | cons x xs => simp at hx
  · cases xs with
    | nil =>
        rw [List.append_nil] at hd
        exact ⟨hd.symm, Except.error.inj (List.cons.inj hx).1⟩
    | cons x xs =>
        have hm : (.error e' : Read) ∈ data.map .ok := by
          rw [hd, (List.cons.inj hx).1]
          exact List.mem_append_right _ List.mem_cons_self
        exact absurd hm (by simp)

theorem readsRight_nonblocking {r : Filling} (h : readNonblocking iov reads 0 = some r) :
    ReadsRight false iov reads r := by
  obtain ⟨data, hf, ⟨rfl, hrv⟩ | ⟨e, he, rfl, hrv⟩⟩ := readNonblocking_spec (Int.le_refl 0) h
  · have noError : ∀ e, (.error e : Read) ∉ data.map .ok := by simp
    rw [Int.zero_add] at hrv
    constructor
    · rwa [got_map_ok]
    · intro _
      rwa [got_map_ok]
    · intro h0
      rw [got_map_ok, ← List.length_eq_zero_iff]
      exact ⟨by omega, fun e he => absurd he (noError e)⟩
    · intro front e back hs
      exact absurd (hs ▸ List.mem_append_right _ List.mem_cons_self) (noError e)
  · have hg : got (data.map .ok ++ [.error e]) = data.flatten := by
      rw [got_append, got_map_ok]
      exact List.append_nil _
    rw [Int.zero_add] at hrv
    constructor
    · rwa [hg]
    · intro hne
      rw [hg] at hne ⊢
      rw [hrv, if_pos (by have := List.length_pos_iff.mpr hne; omega)]
    · intro h0
      split at hrv <;> omega
    · intro front e' back hs hnil _
      obtain ⟨rfl, rfl⟩ := error_split hs
      rw [got_map_ok] at hnil
      rw [hrv, hnil]
      rfl

theorem readsRight_blocking {r : Filling} (hrv : r.rv = (got reads).length)
    (hf : Filled iov (got reads) r.bufs) (he : ∀ e, .error e ∈ reads → e < 0) :
    ReadsRight true iov reads r ↔ OnlyAgain reads := by
  constructor
  · intro h front e back hs hnil
    by_contra hne
    have hre := h.failed front e back hs hnil (fun hr => hne hr.2)
    have hlt := he e (hs ▸ List.mem_append_right _ List.mem_cons_self)
    omega
  · intro h
    constructor
    · exact hf
    · exact fun _ => hrv
    · intro h0
      have hnil : got reads = [] := by
        rw [← List.length_eq_zero_iff]
        omega
      refine ⟨hnil, fun e hm => ⟨rfl, ?_⟩⟩
      obtain ⟨front, back, rfl⟩ := List.append_of_mem hm
      rw [got_append, List.append_eq_nil_iff] at hnil
      exact h front e back rfl hnil.1
    · intro front e back hs hnil hne
      exact absurd ⟨rfl, h front e back hs hnil⟩ hne

variable {s : VcomSocketMain} {fd : Int} {vsock : VcomSocket} {flags : Int32}
  {answers : Int → List Read} {r : Filling}

theorem readsRight_unread {blocking : Bool} (h : rv < 0) (hr : unread iov rv reads = some r) :
    ReadsRight blocking iov reads r ∧ reads = [] := by
  rw [unread] at hr
  split at hr
  · next hnil =>
      obtain rfl := Option.some.inj hr
      rw [hnil]
      exact ⟨readsRight_nil h, rfl⟩
  · exact absurd hr.symm (Option.some_ne_none r)

/-- A session answers every read, by its number and the length asked for. -/
structure Answers (answer : Nat → Nat → Read) : Prop where
  data : ∀ k n d, answer k n = .ok d → d.length ≤ n
  error : ∀ k n e, answer k n = .error e → e < 0

/-- The reads are answers to the reads from number `k` on, each of the length of its buffer. `left`
are the lengths of the buffers that are still to be filled, and an error begins with the first
one again. -/
def Answered (answer : Nat → Nat → Read) (lens : List Nat) : Nat → List Nat → List Read → Prop
  | _, _, [] => True
  | _, [], _ :: _ => False
  | k, n :: _, .error e :: reads => answer k n = .error e ∧ Answered answer lens (k + 1) lens reads
  | k, n :: left, .ok d :: reads => answer k n = .ok d ∧ Answered answer lens (k + 1) left reads

section Answered

variable {answer : Nat → Nat → Read} {lens left : List Nat} {k : Nat} {xs ys : List Read} {e : Int}

theorem Answered.append (hx : Answered answer lens k left (xs ++ [.error e]))
    (hy : Answered answer lens (k + (xs.length + 1)) lens ys) :
    Answered answer lens k left (xs ++ [.error e] ++ ys) := by
  induction xs generalizing k left with
  | nil =>
      cases left with
      | nil => exact hx.elim
      | cons n left => exact ⟨hx.1, hy⟩
  | cons x xs ih =>
      rw [List.length_cons, Nat.add_comm _ 1, ← Nat.add_assoc] at hy
      cases left with
      | nil => exact hx.elim
      | cons n left =>
          cases x with
          | error e => exact ⟨hx.1, ih hx.2 hy⟩
          | ok d => exact ⟨hx.1, ih hx.2 hy⟩

theorem Answered.last (hx : Answered answer lens k left (xs ++ [.error e])) :
    ∃ n, answer (k + xs.length) n = .error e := by
  induction xs generalizing k left with
  | nil =>
      cases left with
      | nil => exact hx.elim
      | cons n left => exact ⟨n, hx.1⟩
  | cons x xs ih =>
      rw [List.length_cons, Nat.add_comm _ 1, ← Nat.add_assoc]
      cases left with
      | nil => exact hx.elim
      | cons n left =>
          cases x with
          | error e => exact ih hx.2
          | ok d => exact ih hx.2

end Answered

theorem length_store {buf data : List UInt8} (h : data.length ≤ buf.length) :
    (store buf data).length = buf.length := by
  rw [store, List.length_append, List.length_drop]
  omega

theorem readPass_returns {answer : Nat → Nat → Read} (ha : Answers answer) (lens : List Nat)
    (k : Nat) (iov : List (List UInt8)) (total rv : Int) :
    ∃ reads, ∃ p : Pass, Answered answer lens k (iov.map List.length) reads ∧
      p.bufs.map List.length = iov.map List.length ∧
      (∀ rest, readPass iov (reads ++ rest) total rv = some { p with rest := rest }) ∧
      (iov ≠ [] → p.rv < 0 → ∃ front, reads = front ++ [.error p.rv]) := by
  induction iov generalizing k total rv with
  | nil =>
      exact ⟨[], ⟨[], total, rv, []⟩, trivial, rfl, fun _ => rfl, fun h => absurd rfl h⟩
  | cons buf iov ih =>
      cases hx : answer k buf.length with
      | error e =>
          have he : ¬ 0 ≤ e := by
            have := ha.error _ _ _ hx
            omega
          refine ⟨[.error e], ⟨buf :: iov, total, e, []⟩, ⟨hx, trivial⟩, rfl, ?_, ?_⟩
          · intro rest
            rw [List.singleton_append, readPass, if_neg he]
          · exact fun _ _ => ⟨[], rfl⟩
      | ok d =>
          have hle := ha.data _ _ _ hx
          have hd : ¬ buf.length < d.length := Nat.not_lt.mpr hle
          by_cases hlt : d.length < buf.length
          · refine ⟨[.ok d], ⟨store buf d :: iov, total + d.length, d.length, []⟩,
              ⟨hx, trivial⟩, by simp [length_store hle], ?_, fun _ h => ?_⟩
            · intro rest
              rw [List.singleton_append, readPass, if_neg hd, if_pos hlt]
            · exact absurd h (by simp only; omega)
          · obtain ⟨reads, p, hans, hlen, hp, hlast⟩ := ih (k + 1) (total + d.length) d.length
            refine ⟨.ok d :: reads, { p with bufs := store buf d :: p.bufs },
              ⟨hx, hans⟩, by simp [hlen, length_store hle], ?_, fun _ hrv => ?_⟩
            · intro rest
              rw [List.cons_append, readPass, if_neg hd, if_neg hlt, hp]
              rfl
            · by_cases hnil : iov = []
              · -- the pass ends with the read that was just made
                subst hnil
                have hq := hp []
                cases reads with
                | nil =>
                    rw [List.nil_append, readPass] at hq
                    have hprv : (d.length : Int) = p.rv := congrArg Pass.rv (Option.some.inj hq)
                    exact absurd hrv (by simp only; omega)
                | cons x reads => exact hans.elim
              · obtain ⟨front, hfront⟩ := hlast hnil hrv
                exact ⟨.ok d :: front, by rw [hfront, List.cons_append]⟩

theorem readBlocking_stop {p : Pass} (hp : readPass iov reads total rv = some p)
    (hstop : ¬ (p.rv = -eagain ∧ p.total = 0)) (hrest : p.rest = []) (fuel : Nat) :
    readBlocking (fuel + 1) iov reads total rv = some ⟨p.bufs, p.total⟩ := by
  rw [readBlocking, hp]
  simp only
  rw [if_neg hstop, if_pos hrest]

/-- A blocking socket returns from the loop when the session does not answer `EAGAIN` for
ever. -/
theorem readBlocking_returns {answer : Nat → Nat → Read} (ha : Answers answer) {last : Nat}
    (hlast : ∀ k n, last ≤ k → answer k n ≠ .error (-eagain)) (m k : Nat) (hm : last ≤ k + m)
    (hne : iov ≠ []) (rv : Int) : ∃ reads r,
      Answered answer (iov.map List.length) k (iov.map List.length) reads ∧
      ∀ fuel, reads.length < fuel → readBlocking fuel iov reads 0 rv = some r := by
  induction m generalizing k iov rv with
  | zero =>
      obtain ⟨reads, p, hans, -, hp, h⟩ := readPass_returns ha (iov.map List.length) k iov 0 rv
      refine ⟨reads, ⟨p.bufs, p.total⟩, hans, fun fuel hfuel => ?_⟩
      obtain ⟨fuel, rfl⟩ := Nat.exists_eq_add_of_lt hfuel
      have hq := hp []
      rw [List.append_nil] at hq
      have hstop : ¬ (p.rv = -eagain ∧ p.total = 0) := by
        rintro ⟨hag, -⟩
        obtain ⟨front, rfl⟩ := h hne (by rw [hag]; decide)
        obtain ⟨n, hn⟩ := hans.last
        exact hlast _ n (by omega) (hag ▸ hn)
      exact readBlocking_stop hq hstop rfl _
  | succ m ih =>
      obtain ⟨reads, p, hans, hlen, hp, h⟩ := readPass_returns ha (iov.map List.length) k iov 0 rv
      by_cases hag : p.rv = -eagain ∧ p.total = 0
      · obtain ⟨front, rfl⟩ := h hne (by rw [hag.1]; decide)
        have hpne : p.bufs ≠ [] := by
          intro hnil
          rw [hnil, List.map_nil, eq_comm, List.map_eq_nil_iff] at hlen
          exact hne hlen
        obtain ⟨reads', r, hans', hr'⟩ := ih (k + (front.length + 1)) (by omega) hpne p.rv
        rw [hlen] at hans'
        refine ⟨front ++ [.error p.rv] ++ reads', r, hans.append hans', fun fuel hfuel => ?_⟩
        obtain ⟨fuel, rfl⟩ := Nat.exists_eq_add_of_lt hfuel
        rw [List.length_append, List.length_append, List.length_singleton] at *
        rw [readBlocking, hp]
        simp only
        rw [if_pos hag, hag.2]
        exact hr' _ (by omega)
      · refine ⟨reads, ⟨p.bufs, p.total⟩, hans, fun fuel hfuel => ?_⟩
        obtain ⟨fuel, rfl⟩ := Nat.exists_eq_add_of_lt hfuel
        have hq := hp []
        rw [List.append_nil] at hq
        exact readBlocking_stop hq hag rfl _

theorem readNonblocking_returns {answer : Nat → Nat → Read} (ha : Answers answer)
    (lens : List Nat) (k : Nat) (iov : List (List UInt8)) (total : Int) :
    ∃ reads r, Answered answer lens k (iov.map List.length) reads ∧
      readNonblocking iov reads total = some r := by
  induction iov generalizing k total with
  | nil => exact ⟨[], _, trivial, rfl⟩
  | cons buf iov ih =>
      cases hx : answer k buf.length with
      | error e =>
          have he := ha.error _ _ _ hx
          refine ⟨[.error e], if 0 < total then ⟨buf :: iov, total⟩ else ⟨buf :: iov, e⟩,
            ⟨hx, trivial⟩, ?_⟩
          rw [readNonblocking, if_neg (by simp; omega)]
          split <;> rfl
      | ok d =>
          have hd : ¬ buf.length < d.length := by
            have := ha.data _ _ _ hx
            omega
          by_cases hlt : d.length < buf.length
          · refine ⟨[.ok d], ⟨store buf d :: iov, total + d.length⟩,
              ⟨hx, trivial⟩, ?_⟩
            rw [readNonblocking, if_neg hd, if_pos hlt, if_neg (not_not.mpr rfl)]
          · obtain ⟨reads, r, hans, hr⟩ := ih (k + 1) (total + d.length)
            refine ⟨.ok d :: reads, { r with bufs := store buf d :: r.bufs },
              ⟨hx, hans⟩, ?_⟩
            rw [readNonblocking, if_neg hd, if_neg hlt, hr]
            rfl

theorem readv_returns {answer : Nat → Nat → Read} (hs : boundSocket s fd = .ok vsock)
    (ha : Answers answer) {last : Nat} (hlast : ∀ k n, last ≤ k → answer k n ≠ .error (-eagain)) :
    ∃ reads r, Answered answer (iov.map List.length) 0 (iov.map List.length) reads ∧
      vcomSocketReadv s fd (some iov) iov.length flags (fun _ => reads) = some r := by
  have early : ∀ rv, ∃ reads r,
      Answered answer (iov.map List.length) 0 (iov.map List.length) reads ∧
        unread iov rv reads = some r :=
    fun rv => ⟨[], _, trivial, if_pos rfl⟩
  simp only [vcomSocketReadv, hs, Int.toNat_natCast, List.take_length, List.drop_length,
    List.append_nil]
  split
  · exact early _
  next hcnt =>
  split
  · exact early _
  split
  · exact early _
  by_cases hb : isBlocking flags = true
  · have hne : iov ≠ [] := fun h => hcnt (.inl (by rw [h]; rfl))
    obtain ⟨reads, r, hans, hr⟩ :=
      readBlocking_returns ha hlast last 0 (by omega) hne flags.toInt
    refine ⟨reads, r, hans, ?_⟩
    rw [if_pos hb, hr _ (Nat.lt_succ_self _)]
    rfl
  · obtain ⟨reads, r, hans, hr⟩ := readNonblocking_returns ha (iov.map List.length) 0 iov 0
    refine ⟨reads, r, hans, ?_⟩
    rw [if_neg hb, hr]
    rfl

theorem readv_right_of_returns (hs : boundSocket s fd = .ok vsock)
    (hr : vcomSocketReadv s fd (some iov) iov.length flags answers = some r) :
    ReadsRight (isBlocking flags) iov (answers vsock.sid) r ↔
      (isBlocking flags = true → OnlyAgain (answers vsock.sid)) := by
  have early : ∀ rv, rv < 0 → unread iov rv (answers vsock.sid) = some r →
      (ReadsRight (isBlocking flags) iov (answers vsock.sid) r ↔
        (isBlocking flags = true → OnlyAgain (answers vsock.sid))) := by
    intro rv h0 h
    obtain ⟨hright, hnil⟩ := readsRight_unread h0 h
    apply iff_of_true hright
    intro _ front e back hs
    rw [hnil] at hs
    exact absurd hs (by simp)
  rw [vcomSocketReadv, hs] at hr
  simp only [Int.toNat_natCast, List.take_length, List.drop_length, List.append_nil] at hr
  split at hr
  · exact early _ (by decide) hr
  split at hr
  · exact early _ (by decide) hr
  split at hr
  · next hlt => exact early _ (Int32.lt_iff_toInt_lt.mp hlt) hr
  obtain ⟨r', hr', rfl⟩ := Option.map_eq_some_iff.mp hr
  by_cases hb : isBlocking flags = true
  · rw [if_pos hb] at hr'
    obtain ⟨hrv, hf, he⟩ := readBlocking_spec hr'
    rw [hb, readsRight_blocking hrv hf he]
    exact ⟨fun h _ => h, fun h => h rfl⟩
  · rw [if_neg hb] at hr'
    rw [Bool.not_eq_true] at hb
    rw [hb]
    exact iff_of_true (readsRight_nonblocking hr') (fun h => absurd h Bool.false_ne_true)

/-- The call returns where the session does not answer `EAGAIN` for ever, and then it is right
about all but the failures of a blocking socket. -/
theorem readv_right_iff (hs : boundSocket s fd = .ok vsock) :
    (∀ answer, Answers answer → (∃ last, ∀ k n, last ≤ k → answer k n ≠ .error (-eagain)) →
      ∃ reads r, Answered answer (iov.map List.length) 0 (iov.map List.length) reads ∧
        vcomSocketReadv s fd (some iov) iov.length flags (fun _ => reads) = some r) ∧
    ∀ answers r, vcomSocketReadv s fd (some iov) iov.length flags answers = some r →
      (ReadsRight (isBlocking flags) iov (answers vsock.sid) r ↔
        (isBlocking flags = true → OnlyAgain (answers vsock.sid))) :=
  ⟨fun _ ha ⟨_, hlast⟩ => readv_returns hs ha hlast, fun _ _ hr => readv_right_of_returns hs hr⟩

theorem readv_right_iff_sample :
    ReadsRight true [[0, 0], [0]] [.error (-11), .ok [7, 8], .error (-104)] ⟨[[7, 8], [0]], 2⟩ ↔
      (isBlocking 2 = true → OnlyAgain [.error (-11), .ok [7, 8], .error (-104)]) :=
  (readv_right_iff (show boundSocket oneSocket 5 = .ok ⟨5, 1, .vppcomBound⟩ from rfl)).2
    (fun _ => [.error (-11), .ok [7, 8], .error (-104)]) _
    (show vcomSocketReadv oneSocket 5 (some [[0, 0], [0]]) 2 2 _ = some _ from rfl)

/-- A connection that was reset reads as one that has ended. -/
theorem readv_reset : ∃ r, vcomSocketReadv oneSocket 5 (some [[0]]) 1 2
      (fun _ => [.error (-104)]) = some r ∧ r.rv = 0 ∧
    ¬ ReadsRight (isBlocking 2) [[0]] [.error (-104)] r := by
  refine ⟨⟨[[0]], 0⟩, rfl, rfl, fun h => ?_⟩
  exact absurd ((h.zero rfl).2 (-104) List.mem_cons_self).2 (by decide)

end Vppsb.VcomReadv
