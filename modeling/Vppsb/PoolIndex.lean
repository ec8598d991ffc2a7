import Mathlib.Data.List.Perm.Basic
import Vppsb.KeyedPool

namespace Vppsb.PoolIndex

open Vppsb.PoolStore Vppsb.KeyedPool

variable {α β κ : Type}

/-- A hash that finds the live entries by their key. -/
def Hashed (key : α → κ) (p : Pool α) (hash : κ → Option Nat) : Prop :=
  ∀ k i, hash k = some i ↔ Live p i ∧ key (p.elt i) = k

def members (vecs : κ → Option (List Nat)) (k : κ) : List Nat := (vecs k).getD []

/-- A hash of vectors that lists the live entries with each key. A vector that
would be empty is not kept. -/
structure Indexed (key : α → κ) (p : Pool α) (vecs : κ → Option (List Nat)) : Prop where
  nonempty : ∀ k, vecs k ≠ some []
  nodup : ∀ k, (members vecs k).Nodup
  mem : ∀ k i, i ∈ members vecs k ↔ Live p i ∧ key (p.elt i) = k

/-- `vec_del1`. The last element takes the place of the one that is deleted. -/
def vecDel1 (l : List Nat) (j : Nat) : List Nat := (l.set j (l.getLastD 0)).dropLast

def remove (p : Pool α) (i : Nat) (a : α) : Pool α := put (set p i a) i

variable {key : α → κ} {p : Pool α} {hash : κ → Option Nat} {vecs : κ → Option (List Nat)}
variable {a : α} {i : Nat} {k : κ}

theorem live_remove {j : Nat} : Live (remove p i a) j ↔ Live p j ∧ j ≠ i := live_put _ _ _

theorem elt_remove_of_ne {j : Nat} (h : j ≠ i) : (remove p i a).elt j = p.elt j := elt_set_of_ne h

theorem wf_remove (hp : WF p) (hi : Live p i) : WF (remove p i a) := wf_put (wf_set hp i a) hi

theorem keyed_insert (hp : WF p) : Live (insert p a) i ∧ key ((insert p a).elt i) = k ↔
    (Live p i ∧ key (p.elt i) = k) ∨ (i = fresh p ∧ key a = k) := by
  rw [live_insert hp]
  constructor
  · rintro ⟨hi | rfl, he⟩
    · exact Or.inl ⟨hi, by rwa [elt_insert_old hi] at he⟩
    · exact Or.inr ⟨rfl, by rwa [elt_insert_fresh] at he⟩
  · rintro (⟨hi, he⟩ | ⟨rfl, he⟩)
    · exact ⟨Or.inl hi, by rwa [elt_insert_old hi]⟩
    · exact ⟨Or.inr rfl, by rwa [elt_insert_fresh]⟩

theorem keyed_remove {j : Nat} : Live (remove p i a) j ∧ key ((remove p i a).elt j) = k ↔
    (Live p j ∧ key (p.elt j) = k) ∧ j ≠ i := by
  rw [live_remove, and_right_comm]
  apply and_congr_left
  intro hne
  rw [elt_remove_of_ne hne]

theorem hashed_empty (a : α) : Hashed key (empty a) (fun _ => none) :=
  fun _ i => iff_of_false (fun h => nomatch h) (fun h => Nat.not_lt_zero i h.1.1)

theorem Hashed.live (h : Hashed key p hash) (hk : hash k = some i) : Live p i := ((h k i).mp hk).1

theorem Hashed.key_eq (h : Hashed key p hash) (hk : hash k = some i) : key (p.elt i) = k :=
  ((h k i).mp hk).2

theorem Hashed.find (h : Hashed key p hash) (hi : Live p i) : hash (key (p.elt i)) = some i :=
  (h _ i).mpr ⟨hi, rfl⟩

theorem Hashed.index_ne {k' : κ} (h : Hashed key p hash) (hk : hash k = some i)
    (hk' : hash k' = some j) (hne : k ≠ k') : i ≠ j := by
  rintro rfl
  exact hne ((h.key_eq hk).symm.trans (h.key_eq hk'))

theorem Hashed.set (h : Hashed key p hash) (hk : key a = key (p.elt i)) :
    Hashed key (set p i a) hash := by
  intro k j
  rw [key_set hk]
  exact h k j

def column (f : α → β) (p : Pool α) : List β := (liveIndices p).map (fun i => f (p.elt i))

theorem mem_column {f : α → β} {b : β} : b ∈ column f p ↔ ∃ i, Live p i ∧ f (p.elt i) = b := by
  simp only [column, List.mem_map, mem_liveIndices]

theorem Hashed.none_of_notMem (h : Hashed key p hash) (hk : k ∉ column key p) : hash k = none := by
  cases he : hash k with
  | none => rfl
  | some i => exact absurd (mem_column.mpr ⟨i, (h k i).mp he⟩) hk

theorem column_congr {f : α → β} {q : Pool α} (h : liveIndices q = liveIndices p)
    (he : ∀ i, Live p i → f (q.elt i) = f (p.elt i)) : column f q = column f p := by
  rw [column, column, h]
  apply List.map_congr_left
  intro i hi
  exact he i ((mem_liveIndices p i).mp hi)

theorem column_insert (f : α → β) (hp : WF p) :
    (column f (insert p a)).Perm (f a :: column f p) := by
  have hl : (liveIndices (insert p a)).Perm (fresh p :: liveIndices p) := liveIndices_get hp
  have hm := hl.map fun i => f ((insert p a).elt i)
  rw [List.map_cons, elt_insert_fresh] at hm
  have he : (liveIndices p).map (fun i => f ((insert p a).elt i)) = column f p := by
    apply List.map_congr_left
    intro i hi
    rw [elt_insert_old ((mem_liveIndices p i).mp hi)]
  rwa [he] at hm

theorem column_remove (f : α → β) (hi : Live p i) :
    (column f p).Perm (f (p.elt i) :: column f (remove p i a)) := by
  have hl : (liveIndices p).Perm (i :: liveIndices (remove p i a)) := liveIndices_put hi
  have hm := hl.map fun j => f (p.elt j)
  have he : (liveIndices (remove p i a)).map (fun j => f (p.elt j)) =
      column f (remove p i a) := by
    apply List.map_congr_left
    intro j hj
    rw [elt_remove_of_ne (live_remove.mp ((mem_liveIndices _ j).mp hj)).2]
  rwa [List.map_cons, he] at hm

theorem column_set {f : α → β} (h : f a = f (p.elt i)) : column f (set p i a) = column f p :=
  column_congr rfl fun j _ => key_set h j

theorem column_injective {f : α → β} {j : Nat} (hn : (column f p).Nodup) (hi : Live p i)
    (hj : Live p j) (h : f (p.elt i) = f (p.elt j)) : i = j :=
  List.inj_on_of_nodup_map hn ((mem_liveIndices p i).mpr hi) ((mem_liveIndices p j).mpr hj) h

theorem remove_set (b : α) : remove (set p i a) i b = remove p i b := by
  simp only [remove, PoolStore.set, Function.update_idem]

/-- What is open, without repetition, is what the two lists hold. -/
structure Owned (l ks ls : List β) : Prop where
  nodup : l.Nodup
  perm : l.Perm (ks ++ ls)

section

variable {l ks ks' ls : List β} {b : β}

theorem Owned.symm (h : Owned l ks ls) : Owned l ls ks := ⟨h.nodup, h.perm.trans List.perm_append_comm⟩

theorem Owned.cons (h : Owned l ks ls) (hb : b ∉ l) (hk : ks'.Perm (b :: ks)) :
    Owned (b :: l) ks' ls :=
  ⟨List.nodup_cons.mpr ⟨hb, h.nodup⟩, (h.perm.cons b).trans (hk.symm.append_right ls)⟩

theorem Owned.erase [DecidableEq β] (h : Owned l ks ls) (hk : ks.Perm (b :: ks')) :
    Owned (l.erase b) ks' ls := by
  refine ⟨h.nodup.erase b, ?_⟩
  have hp := (h.perm.trans (hk.append_right ls)).erase b
  rwa [List.cons_append, List.erase_cons_head] at hp

end

theorem indexed_empty (a : α) : Indexed key (empty a) (fun _ => none) := by
  refine ⟨fun _ => Ne.symm (Option.some_ne_none _), fun _ => List.nodup_nil, fun _ i => ?_⟩
  exact iff_of_false List.not_mem_nil (fun h => Nat.not_lt_zero i h.1.1)

theorem Indexed.set (h : Indexed key p vecs) (hk : key a = key (p.elt i)) :
    Indexed key (set p i a) vecs := by
  refine ⟨h.nonempty, h.nodup, fun k j => ?_⟩
  rw [key_set hk]
  exact h.mem k j

/-- A pool whose entries a hash finds by their key, all of them good. -/
structure Table (key : α → κ) (good : α → Prop) (p : Pool α) (hash : κ → Option Nat) : Prop where
  wf : WF p
  hashed : Hashed key p hash
  good : ∀ i, Live p i → good (p.elt i)

variable {good : α → Prop}

theorem table_empty (a : α) : Table key good (empty a) (fun _ => none) :=
  ⟨wf_empty a, hashed_empty a, fun i hi => absurd hi.1 (Nat.not_lt_zero i)⟩

theorem Table.found (h : Table key good p hash) (hk : hash k = some i) : good (p.elt i) :=
  h.good i (h.hashed.live hk)

theorem Table.set (h : Table key good p hash) (hk : key a = key (p.elt i)) (ha : good a) :
    Table key good (set p i a) hash := by
  refine ⟨wf_set h.wf i a, h.hashed.set hk, fun j hj => ?_⟩
  by_cases hji : j = i
  · rwa [hji, elt_set_self]
  · rw [elt_set_of_ne hji]
    exact h.good j hj

theorem vecDel1_perm {l : List Nat} {j : Nat} (hj : j < l.length) :
    (vecDel1 l j).Perm (l.eraseIdx j) := by
  cases List.eq_nil_or_concat l with
  | inl hl =>
    rw [hl] at hj
    exact absurd hj (Nat.not_lt_zero j)
  | inr hl =>
    obtain ⟨ys, x, rfl⟩ := hl
    rw [List.concat_eq_append] at hj ⊢
    have hlen : j < ys.length + 1 := by simpa using hj
    rw [vecDel1, List.getLastD_concat]
    by_cases hlast : j < ys.length
    · rw [List.set_append_left j x hlast, List.dropLast_concat,
        List.eraseIdx_append_of_lt_length hlast]
      exact (List.set_perm_cons_eraseIdx hlast x).trans (List.perm_append_singleton x _).symm
    · have hj : j = ys.length := by omega
      have hs : (ys ++ [x]).set ys.length x = ys ++ [x] := by simp
      rw [hj, hs, List.dropLast_concat, List.eraseIdx_append_of_length_le (Nat.le_refl _)]
      simp

theorem vecDel1_idxOf_perm {l : List Nat} {i : Nat} (hi : i ∈ l) :
    (vecDel1 l (l.idxOf i)).Perm (l.erase i) := by
  rw [List.erase_eq_eraseIdx_of_idxOf rfl]
  exact vecDel1_perm (List.idxOf_lt_length_of_mem hi)

section

variable [DecidableEq κ]

def addIndex (vecs : κ → Option (List Nat)) (k : κ) (i : Nat) : κ → Option (List Nat) :=
  match vecs k with
  | none => Function.update vecs k (some [i])
  | some l => Function.update vecs k (some (l ++ [i]))

/-- Undefined where there is no vector for the key. -/
def delIndex (vecs : κ → Option (List Nat)) (k : κ) (i : Nat) : Option (κ → Option (List Nat)) :=
  match vecs k with
  | none => none
  | some l =>
    if i ∈ l then
      let l := vecDel1 l (l.idxOf i)
      some (Function.update vecs k (if l = [] then none else some l))
    else some vecs

theorem Hashed.insert (h : Hashed key p hash) (hp : WF p) (hk : hash (key a) = none) :
    Hashed key (insert p a) (Function.update hash (key a) (some (fresh p))) := by
  intro k i
  rw [keyed_insert hp, ← h k i]
  by_cases hka : k = key a
  · rw [hka, Function.update_self, hk, Option.some.injEq]
    constructor
    · exact fun hi => Or.inr ⟨hi.symm, rfl⟩
    · rintro (hi | ⟨hi, _⟩)
      · cases hi
      · exact hi.symm
  · rw [Function.update_of_ne hka]
    exact (or_iff_left fun hi => hka hi.2.symm).symm

theorem Hashed.remove (h : Hashed key p hash) (hi : Live p i) :
    Hashed key (remove p i a) (Function.update hash (key (p.elt i)) none) := by
  intro k j
  rw [keyed_remove, ← h k j]
  by_cases hk : k = key (p.elt i)
  · rw [hk, Function.update_self, h.find hi]
    exact iff_of_false (fun h => nomatch h) (fun hj => hj.2 (Option.some.inj hj.1).symm)
  · rw [Function.update_of_ne hk]
    refine (and_iff_left_of_imp fun hj => ?_).symm
    rintro rfl
    exact hk (h.key_eq hj).symm

theorem members_update (o : Option (List Nat)) (k' : κ) :
    members (Function.update vecs k o) k' = if k' = k then o.getD [] else members vecs k' := by
  by_cases hk : k' = k
  · rw [if_pos hk, hk, members, Function.update_self]
  · rw [if_neg hk, members, Function.update_of_ne hk, members]

theorem addIndex_eq : addIndex vecs k i = Function.update vecs k (some (members vecs k ++ [i])) := by
  unfold addIndex members
  cases vecs k <;> rfl

theorem members_addIndex (k' : κ) : members (addIndex vecs k i) k' =
    if k' = k then members vecs k ++ [i] else members vecs k' := by
  rw [addIndex_eq, members_update, Option.getD_some]

theorem Indexed.insert (h : Indexed key p vecs) (hp : WF p) :
    Indexed key (insert p a) (addIndex vecs (key a) (fresh p)) := by
  have hnew : ∀ k, fresh p ∉ members vecs k := fun k hm => not_live_fresh ((h.mem k _).mp hm).1
  refine ⟨fun k => ?_, fun k => ?_, fun k i => ?_⟩
  · rw [addIndex_eq]
    by_cases hk : k = key a
    · rw [hk, Function.update_self]
      simp
    · rw [Function.update_of_ne hk]
      exact h.nonempty k
  · rw [members_addIndex]
    split
    · exact List.nodup_append_comm.mp (List.nodup_cons.mpr ⟨hnew _, h.nodup _⟩)
    · exact h.nodup k
  · rw [members_addIndex, keyed_insert hp]
    split
    · rename_i hk
      rw [List.mem_append, List.mem_singleton, h.mem, hk, and_iff_left rfl]
    · rename_i hk
      rw [h.mem]
      exact (or_iff_left fun hi => hk hi.2.symm).symm

theorem delIndex_members {vecs' : κ → Option (List Nat)} (hi : i ∈ members vecs k)
    (hd : delIndex vecs k i = some vecs') :
    (members vecs' k).Perm ((members vecs k).erase i) ∧ vecs' k ≠ some [] ∧
      ∀ k', k' ≠ k → vecs' k' = vecs k' := by
  unfold members at hi ⊢
  unfold delIndex at hd
  cases hl : vecs k with
  | none =>
    rw [hl] at hi
    exact absurd hi List.not_mem_nil
  | some l =>
    rw [hl, Option.getD_some] at hi
    rw [hl] at hd
    dsimp only at hd
    rw [if_pos hi, Option.some.injEq] at hd
    rw [← hd, Function.update_self, Option.getD_some]
    refine ⟨?_, ?_, fun k' hk' => Function.update_of_ne hk' _ _⟩
    · have hp := vecDel1_idxOf_perm hi
      split
      · rename_i hnil
        rwa [hnil] at hp
      · exact hp
    · split
      · exact Ne.symm (Option.some_ne_none _)
      · rename_i hne
        exact fun he => hne (Option.some.inj he)

theorem delIndex_defined (hi : i ∈ members vecs k) : ∃ vecs', delIndex vecs k i = some vecs' := by
  unfold members at hi
  unfold delIndex
  cases hl : vecs k with
  | none =>
    rw [hl] at hi
    exact absurd hi List.not_mem_nil
  | some l =>
    rw [hl, Option.getD_some] at hi
    exact ⟨_, if_pos hi⟩

theorem Indexed.remove (h : Indexed key p vecs) (hi : Live p i)
    {vecs' : κ → Option (List Nat)} (hd : delIndex vecs (key (p.elt i)) i = some vecs') :
    Indexed key (remove p i a) vecs' := by
  have hm : i ∈ members vecs (key (p.elt i)) := (h.mem _ i).mpr ⟨hi, rfl⟩
  obtain ⟨hp, hne, hother⟩ := delIndex_members hm hd
  have hn := h.nodup (key (p.elt i))
  refine ⟨fun k => ?_, fun k => ?_, fun k j => ?_⟩
  · by_cases hk : k = key (p.elt i)
    · rw [hk]
      exact hne
    · rw [hother k hk]
      exact h.nonempty k
  · by_cases hk : k = key (p.elt i)
    · rw [hk]
      exact hp.nodup_iff.mpr (hn.erase i)
    · rw [members, hother k hk]
      exact h.nodup k
  · rw [keyed_remove, ← h.mem]
    by_cases hk : k = key (p.elt i)
    · rw [hk, hp.mem_iff, hn.mem_erase_iff, and_comm]
    · rw [members, hother k hk]
      refine (and_iff_left_of_imp fun hj => ?_).symm
      rintro rfl
      exact hk ((h.mem k j).mp hj).2.symm

theorem Table.insert (h : Table key good p hash) (hk : hash (key a) = none) (ha : good a) :
    Table key good (insert p a) (Function.update hash (key a) (some (fresh p))) := by
  refine ⟨wf_insert h.wf, h.hashed.insert h.wf hk, fun j hj => ?_⟩
  cases (live_insert h.wf j).mp hj with
  | inl hj =>
    rw [elt_insert_old hj]
    exact h.good j hj
  | inr hj => rwa [hj, elt_insert_fresh]

theorem Table.remove (h : Table key good p hash) (hk : hash k = some i) :
    Table key good (remove p i a) (Function.update hash k none) := by
  have hi := h.hashed.live hk
  refine ⟨wf_remove h.wf hi, ?_, fun j hj => ?_⟩
  · rw [← h.hashed.key_eq hk]
    exact h.hashed.remove hi
  · obtain ⟨hj, hne⟩ := live_remove.mp hj
    rw [elt_remove_of_ne hne]
    exact h.good j hj

end

end Vppsb.PoolIndex
