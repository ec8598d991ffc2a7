import Vppsb.NetnsTables

namespace Vppsb.NetnsReceive

open Vppsb.PoolStore Vppsb.KeyedPool Vppsb.NetnsEntry Vppsb.NetnsTables

variable {α κ : Type} {key : α → κ} {k : κ} {del : Bool} {p : Pool α} {out : Outcome α}

/-- What a table in which entries are told apart by a key does on a message with
the key `k`. -/
inductive Handled (key : α → κ) (k : κ) (p : Pool α) : Bool → Outcome α → Prop
  | update (i : Nat) (a : α) (hi : Live p i) (hk : key (p.elt i) = k) (ha : key a = k) :
    Handled key k p false ⟨set p i a, some (i, netnsFAdd), 0⟩
  | add (a : α) (hk : ¬ Holds key p k) (ha : key a = k) :
    Handled key k p false ⟨insert p a, some (fresh p, netnsFAdd), 0⟩
  | remove (i : Nat) (hi : Live p i) (hk : key (p.elt i) = k) :
    Handled key k p true ⟨put p i, some (i, netnsFDel), 0⟩
  | absent (hk : ¬ Holds key p k) : Handled key k p true ⟨p, none, -1⟩

theorem Handled.unique (h : Handled key k p del out) (hp : WF p) (hu : Unique key p) :
    Unique key out.table := by
  cases h with
  | update i a hi hk ha => exact hu.set (ha.trans hk.symm)
  | add a hk ha => exact hu.insert hp (ha.symm ▸ hk)
  | remove i hi hk => exact hu.put i
  | absent hk => exact hu

theorem Handled.wf (h : Handled key k p del out) (hp : WF p) : WF out.table := by
  cases h with
  | update i a hi hk ha => exact wf_set hp i a
  | add a hk ha => exact wf_insert hp
  | remove i hi hk => exact wf_put hp hi
  | absent hk => exact hp

theorem Handled.holds_iff (h : Handled key k p del out) (hp : WF p) (hu : Unique key p) (l : κ) :
    Holds key out.table l ↔ if del then Holds key p l ∧ l ≠ k else Holds key p l ∨ l = k := by
  cases h with
  | update i a hi hk ha =>
    rw [holds_set (ha.trans hk.symm)]
    refine ⟨Or.inl, fun h => ?_⟩
    cases h with
    | inl h => exact h
    | inr h => exact ⟨i, hi, hk.trans h.symm⟩
  | add a hk ha =>
    rw [holds_insert hp, ha]
    rfl
  | remove i hi hk =>
    rw [holds_put hu hi, hk]
    rfl
  | absent hk =>
    refine ⟨fun h => ⟨h, fun he => hk (he ▸ h)⟩, fun h => h.1⟩

section

variable {φ : Type} [DecidableEq φ] {size : φ → Nat} {n : Nat} {κ : Type}
  {key : Entry n size → κ} {k : κ} {p : Pool (Entry n size)} {m : Nlmsg} {rtas : Rtas}
  {find : Pool (Entry n size) → (Fin n → UInt8) → Rtas → Option Nat}
  {map : List (Mapping φ)} {clear : Bool} {delType : Nat} {test : Entry n size → Bool}

def written (map : List (Mapping φ)) (m : Nlmsg) (rtas : Rtas) (init : Bool) (old : Entry n size) :
    Entry n size :=
  { (rtnlEntrySet rtas init map old).1 with hdr := header n m }

theorem nsRcv_refused (h : attributes n m = none) :
    nsRcv find map clear delType p m = ⟨p, none, -1⟩ := by
  rw [nsRcv, h]

/-- A table follows the key when its search does, and when what it writes has
the key of the message. -/
theorem nsRcv_handled (ha : attributes n m = some rtas)
    (hfind : find p (header n m) rtas = findLive test p)
    (htest : ∀ i, Live p i → (test (p.elt i) = true ↔ key (p.elt i) = k))
    (hnew : m.nlmsgType ≠ delType → ¬ Holds key p k →
      key (written map m rtas true (if clear then zeroEntry else (get p).elt (fresh p))) = k)
    (hset : m.nlmsgType ≠ delType → ∀ i, Live p i → key (p.elt i) = k →
      key (written map m rtas false (p.elt i)) = k) :
    Handled key k p (decide (m.nlmsgType = delType)) (nsRcv find map clear delType p m) := by
  rw [nsRcv, ha]
  simp only [hfind]
  cases hf : findLive test p with
  | none =>
    have hk : ¬ Holds key p k := by
      intro ⟨i, hi, hk⟩
      have := findLive_none hf hi
      rw [(htest i hi).mpr hk] at this
      cases this
    by_cases hd : m.nlmsgType = delType
    · rw [if_pos hd, decide_eq_true hd]
      exact Handled.absent hk
    · rw [if_neg hd, decide_eq_false hd]
      exact Handled.add _ hk (hnew hd hk)
  | some i =>
    obtain ⟨hi, ht⟩ := findLive_some hf
    have hk := (htest i hi).mp ht
    by_cases hd : m.nlmsgType = delType
    · rw [if_pos hd, decide_eq_true hd]
      exact Handled.remove i hi hk
    · rw [if_neg hd, decide_eq_false hd]
      exact Handled.update i _ hi hk (hset hd i hi hk)

/-- What a message does to a table, however its entries are told apart. -/
inductive Changed (mask : List UInt8) (map : List (Mapping φ)) (delType : Nat)
    (p : Pool (Entry n size)) (m : Nlmsg) : Outcome (Entry n size) → Prop
  | nothing (h : ∀ rtas, attributes n m = some rtas →
      nsGet mask map p (header n m) rtas = none) : Changed mask map delType p m ⟨p, none, -1⟩
  | removed (rtas : Rtas) (i : Nat) (ha : attributes n m = some rtas) (hd : m.nlmsgType = delType)
      (hf : nsGet mask map p (header n m) rtas = some i) :
    Changed mask map delType p m ⟨put p i, some (i, netnsFDel), 0⟩
  | added (a : Entry n size) (hd : m.nlmsgType ≠ delType) :
    Changed mask map delType p m ⟨insert p a, some (fresh p, netnsFAdd), 0⟩
  | updated (rtas : Rtas) (i : Nat) (hd : m.nlmsgType ≠ delType)
      (hf : nsGet mask map p (header n m) rtas = some i) :
    Changed mask map delType p m
      ⟨set p i (written map m rtas false (p.elt i)), some (i, netnsFAdd), 0⟩

theorem nsRcv_changed {mask : List UInt8} :
    Changed mask map delType p m (nsRcv (nsGet mask map) map clear delType p m) := by
  rw [nsRcv]
  cases ha : attributes n m with
  | none => exact .nothing fun rtas h => absurd (h.symm.trans ha) (Option.some_ne_none rtas)
  | some rtas =>
    dsimp only
    cases hf : nsGet mask map p (header n m) rtas with
    | none =>
      split
      · refine .nothing fun rtas' h => ?_
        rw [← Option.some.inj (ha.symm.trans h)]
        exact hf
      · rename_i hd
        exact .added _ hd
    | some i =>
      split
      · rename_i hd
        exact .removed rtas i ha hd hf
      · rename_i hd
        exact .updated rtas i hd hf

omit [DecidableEq φ] in
theorem hdr_of_accepts {mask : List UInt8} {hdr : Fin n → UInt8} {e : Entry n size} {i : Nat}
    (h : accepts mask map hdr rtas e = true) (hi : i < mask.length) (hmask : mask.getD i 0 = 255) :
    byteAt e.hdr i = byteAt hdr i := by
  have hm := (maskMatch_iff _ _ _ _).mp (Bool.and_eq_true_iff.mp h).1 i hi
  rw [hmask, and_ff, and_ff] at hm
  exact hm

end

end Vppsb.NetnsReceive
