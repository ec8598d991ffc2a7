import Vppsb.NetnsReceive
import Vppsb.PoolImage

namespace Vppsb.NetnsNotified

open Vppsb.PoolStore Vppsb.KeyedPool Vppsb.PoolImage Vppsb.NetnsEntry Vppsb.NetnsTables
  Vppsb.NetnsReceive

section

variable {α β : Type}

/-- What a subscriber is told when a table changes: the entry that was written or
deleted accounts for what the live entries stand for now and did before. -/
structure Noted (g : α → Option β) (p q : Pool α) (a : α) (flags : Nat) : Prop where
  wf : WF q
  kind : flags = netnsFAdd ∨ flags = netnsFDel
  gained : ∀ b, b ∈ image g q → b ∈ image g p ∨ g a = some b
  own : ∀ b, g a = some b → b ∈ image g p ∨ b ∈ image g q
  deleted : flags = netnsFDel → ∀ b, b ∈ image g p ↔ b ∈ image g q ∨ g a = some b

variable {g : α → Option β} {p : Pool α} {i : Nat} {a : α}

theorem noted_put (hp : WF p) (hi : Live p i) : Noted g p (put p i) (p.elt i) netnsFDel := by
  have hsplit : ∀ b, b ∈ image g p ↔ b ∈ image g (put p i) ∨ g (p.elt i) = some b := by
    intro b
    rw [image_put, mem_image_iff hi]
  exact ⟨wf_put hp hi, Or.inr rfl, fun b hb => Or.inl ((hsplit b).mpr (Or.inl hb)),
    fun b hb => Or.inl ((hsplit b).mpr (Or.inr hb)), fun _ => hsplit⟩

theorem noted_insert (hp : WF p) : Noted g p (insert p a) a netnsFAdd := by
  refine ⟨wf_insert hp, Or.inl rfl, fun b hb => (mem_image_insert hp).mp hb, fun b hb => ?_,
    fun h => absurd h (by decide)⟩
  exact Or.inr ((mem_image_insert hp).mpr (Or.inr hb))

theorem noted_set (hp : WF p) (hi : Live p i) : Noted g p (set p i a) a netnsFAdd := by
  refine ⟨wf_set hp i a, Or.inl rfl, fun b hb => ?_, fun b hb => ?_,
    fun h => absurd h (by decide)⟩
  · exact ((mem_image_set hi).mp hb).imp_left fun hb => (mem_image_iff hi).mpr (Or.inl hb)
  · exact Or.inr ((mem_image_set hi).mpr (Or.inr hb))

end

variable {φ β : Type} [DecidableEq φ] {size : φ → Nat} {n : Nat} {mask : List UInt8}
  {map : List (Mapping φ)} {delType : Nat} {p : Pool (Entry n size)} {m : Nlmsg}
  {out : Outcome (Entry n size)} {g : Entry n size → Option β}

/-- A message changes nothing, or what the subscriber is told accounts for it. -/
theorem noted_of_changed (hp : WF p) (h : Changed mask map delType p m out) :
    (out.table = p ∧ out.note = none) ∨
      ∃ i flags, out.note = some (i, flags) ∧ Noted g p out.table (out.table.elt i) flags := by
  cases h with
  | nothing => exact Or.inl ⟨rfl, rfl⟩
  | removed rtas i _ _ hf => exact Or.inr ⟨i, _, rfl, noted_put hp (findLive_some hf).1⟩
  | added a =>
    refine Or.inr ⟨fresh p, _, rfl, ?_⟩
    rw [elt_insert_fresh]
    exact noted_insert hp
  | updated rtas i _ hf =>
    refine Or.inr ⟨i, _, rfl, ?_⟩
    rw [elt_set_self]
    exact noted_set hp (findLive_some hf).1

end Vppsb.NetnsNotified
