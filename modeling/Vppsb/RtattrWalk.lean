import Vppsb.NetnsEntry

namespace Vppsb.RtattrWalk

open Vppsb.NetnsEntry

/-- The attributes of a message, in a memory that goes on behind them. The length is a
`size_t`. -/
structure Area where
  mem : Nat → UInt8
  len : Nat
  fits : len < 18446744073709551616

section Header

variable (mem : Nat → UInt8) (off : Nat)

def wordAt : Nat := (mem off).toNat + 256 * (mem (off + 1)).toNat

def rtaLen : Nat := wordAt mem off

def rtaType : Nat := wordAt mem (off + 2)

def rtaAlign : Nat := (rtaLen mem off + 3) / 4 * 4

end Header

/-- `RTA_OK`, which does not look at the length of an attribute without a whole header. -/
def rtaOk (mem : Nat → UInt8) (off len : Nat) : Bool :=
  decide (4 ≤ len) && (decide (4 ≤ rtaLen mem off) && decide (rtaLen mem off ≤ len))

/-- What `rtnl_parse_rtattr` returns and leaves in `db`, as offsets of attributes, and the
offsets of the bytes that it reads. -/
structure Walk where
  db : Nat → Option Nat
  ret : Int
  reads : List Nat

/-- `rtnl_parse_rtattr` from an offset on, with the length that is left. The first number
bounds the passes. The warning at the end reads the length of an attribute. -/
def rtnlParseRtattr (mem : Nat → UInt8) (max : Nat) :
    Nat → Nat → Nat → (Nat → Option Nat) → Option Walk
  | 0, _, _, _ => none
  | fuel + 1, off, len, db =>
      if rtaOk mem off len then
        let db := if rtaType mem off ≤ max then Function.update db (rtaType mem off) (some off)
          else db
        (rtnlParseRtattr mem max fuel (off + rtaAlign mem off) (sizeSub len (rtaAlign mem off)) db).map
          (fun w => { w with reads := off :: (off + 1) :: (off + 2) :: (off + 3) :: w.reads })
      else if len ≠ 0 then some ⟨db, -1, [off, off + 1]⟩
      else some ⟨db, 0, []⟩

section Area

variable (a : Area) (off : Nat)

/-- A well-formed attribute stands at the offset. Its padding may be missing. -/
def WellFormed : Prop :=
  off + 4 ≤ a.len ∧ 4 ≤ rtaLen a.mem off ∧ off + rtaLen a.mem off ≤ a.len

/-- From the offset on the area is covered by the attributes at these offsets, laid end to
end. -/
inductive Laid (a : Area) : Nat → List Nat → Prop
  | done : Laid a a.len []
  | last {off : Nat} (h : WellFormed a off) (hpad : a.len < off + rtaAlign a.mem off) :
      Laid a off [off]
  | next {off : Nat} {offs : List Nat} (h : WellFormed a off)
      (hpad : off + rtaAlign a.mem off ≤ a.len) (hrest : Laid a (off + rtaAlign a.mem off) offs) :
      Laid a off (off :: offs)

def lastOf (t : Nat) (offs : List Nat) (old : Option Nat) : Option Nat :=
  ((offs.filter (fun off => decide (rtaType a.mem off = t))).getLast?).or old

/-- The walk ends, stays in the area, accepts what is covered by attributes and nothing
else, and then has the last attribute of each type. -/
structure Parses (max : Nat) (db : Nat → Option Nat) (w : Walk) : Prop where
  inside : ∀ r ∈ w.reads, r < a.len
  covered : w.ret = 0 ↔ ∃ offs, Laid a off offs
  table : ∀ offs, Laid a off offs → ∀ t,
    w.db t = if t ≤ max then lastOf a t offs (db t) else db t

/-- The offsets at which a walk over well-formed attributes with whole paddings arrives. -/
inductive Arrives (a : Area) (start : Nat) : Nat → Prop
  | start : Arrives a start start
  | next {off : Nat} (h : Arrives a start off) (hw : WellFormed a off)
      (hpad : off + rtaAlign a.mem off ≤ a.len) : Arrives a start (off + rtaAlign a.mem off)

/-- The walk comes neither to a single byte at the end of the area nor to an attribute
whose padding is not in it. -/
def Roomy (start : Nat) : Prop :=
  ∀ off, Arrives a start off → off + 1 ≠ a.len ∧
    (WellFormed a off → off + rtaAlign a.mem off ≤ a.len)

end Area

variable {a : Area} {mem : Nat → UInt8} {max off fuel len : Nat} {db : Nat → Option Nat} {w : Walk}

theorem rtaAlign_bounds (mem : Nat → UInt8) (off : Nat) :
    rtaLen mem off ≤ rtaAlign mem off ∧ rtaAlign mem off < rtaLen mem off + 4 := by
  rw [rtaAlign]
  omega

theorem rtaOk_iff (h : off ≤ a.len) : rtaOk a.mem off (a.len - off) = true ↔ WellFormed a off := by
  simp only [rtaOk, Bool.and_eq_true, decide_eq_true_eq, WellFormed]
  omega

section Passes

def walkFrom (a : Area) (max fuel off : Nat) (db : Nat → Option Nat) : Option Walk :=
  rtnlParseRtattr a.mem max fuel off (a.len - off) db

def enter (a : Area) (max off : Nat) (db : Nat → Option Nat) : Nat → Option Nat :=
  if rtaType a.mem off ≤ max then Function.update db (rtaType a.mem off) (some off) else db

def addReads (off : Nat) (w : Walk) : Walk :=
  { w with reads := off :: (off + 1) :: (off + 2) :: (off + 3) :: w.reads }

theorem walk_next (hw : WellFormed a off) (hpad : off + rtaAlign a.mem off ≤ a.len) :
    walkFrom a max (fuel + 1) off db =
      (walkFrom a max fuel (off + rtaAlign a.mem off) (enter a max off db)).map (addReads off) := by
  have hle : off ≤ a.len := by
    have := hw.1
    omega
  have hlen : sizeSub (a.len - off) (rtaAlign a.mem off) = a.len - (off + rtaAlign a.mem off) := by
    rw [sizeSub, if_neg (by omega)]
    omega
  rw [walkFrom, rtnlParseRtattr, if_pos ((rtaOk_iff hle).mpr hw), hlen]
  rfl

theorem walk_stops (hle : off ≤ a.len) (hw : ¬ WellFormed a off) :
    walkFrom a max (fuel + 1) off db =
      if off = a.len then some ⟨db, 0, []⟩ else some ⟨db, -1, [off, off + 1]⟩ := by
  rw [walkFrom, rtnlParseRtattr, if_neg (fun h => hw ((rtaOk_iff hle).mp h))]
  by_cases h : off = a.len
  · rw [if_neg (by omega), if_pos h]
  · rw [if_pos (by omega), if_neg h]

/-- Behind an attribute whose padding is missing the walk goes on outside of the area. -/
theorem walk_outside (hw : WellFormed a off) (hpad : a.len < off + rtaAlign a.mem off)
    (h : walkFrom a max fuel off db = some w) : ∃ r ∈ w.reads, a.len ≤ r := by
  have hle : off ≤ a.len := by
    have := hw.1
    omega
  have hlen := hw.2.2
  have halign := rtaAlign_bounds a.mem off
  have hfits := a.fits
  have hbig : 4 ≤ sizeSub (a.len - off) (rtaAlign a.mem off) := by
    rw [sizeSub, if_pos (by omega)]
    omega
  cases fuel with
  | zero => exact absurd h.symm (Option.some_ne_none w)
  | succ fuel =>
      rw [walkFrom, rtnlParseRtattr, if_pos ((rtaOk_iff hle).mpr hw)] at h
      obtain ⟨v, hv, rfl⟩ := Option.map_eq_some_iff.mp h
      refine ⟨off + rtaAlign a.mem off, ?_, by omega⟩
      have hm : off + rtaAlign a.mem off ∈ v.reads := by
        cases fuel with
        | zero => exact absurd hv.symm (Option.some_ne_none v)
        | succ fuel =>
            rw [rtnlParseRtattr] at hv
            split at hv
            · obtain ⟨u, _, rfl⟩ := Option.map_eq_some_iff.mp hv
              exact List.mem_cons_self
            · rw [if_pos (by omega)] at hv
              obtain rfl := Option.some.inj hv
              exact List.mem_cons_self
      simp only [List.mem_cons]
      exact .inr (.inr (.inr (.inr hm)))

end Passes

theorem lastOf_cons (a : Area) (t off : Nat) (offs : List Nat) (old : Option Nat) :
    lastOf a t (off :: offs) old =
      lastOf a t offs (if rtaType a.mem off = t then some off else old) := by
  rw [lastOf, lastOf]
  by_cases h : rtaType a.mem off = t
  · rw [if_pos h, List.filter_cons_of_pos (by simpa using h), List.getLast?_cons]
    cases (offs.filter (fun off => decide (rtaType a.mem off = t))).getLast? <;> rfl
  · rw [if_neg h, List.filter_cons_of_neg (by simpa using h)]

theorem laid_end {offs : List Nat} (hw : ¬ WellFormed a off) (h : Laid a off offs) :
    off = a.len ∧ offs = [] := by
  cases h with
  | done => exact ⟨rfl, rfl⟩
  | last h _ | next h _ _ => exact absurd h hw

theorem not_wellFormed_end (a : Area) : ¬ WellFormed a a.len := by
  intro h
  have := h.1
  omega

theorem laid_cons {offs : List Nat} (hw : WellFormed a off)
    (hpad : off + rtaAlign a.mem off ≤ a.len) (h : Laid a off offs) :
    ∃ rest, offs = off :: rest ∧ Laid a (off + rtaAlign a.mem off) rest := by
  cases h with
  | done => exact absurd hw (not_wellFormed_end a)
  | last _ h => exact absurd hpad (by omega)
  | next _ _ h => exact ⟨_, rfl, h⟩

theorem Arrives.cons {x : Nat} (hw : WellFormed a off) (hpad : off + rtaAlign a.mem off ≤ a.len)
    (h : Arrives a (off + rtaAlign a.mem off) x) : Arrives a off x := by
  induction h with
  | start => exact .next .start hw hpad
  | next _ hw hpad ih => exact .next ih hw hpad

theorem parses_end (hw : ¬ WellFormed a off) (hle : off ≤ a.len) (hroom : off + 1 ≠ a.len) :
    Parses a off max db (if off = a.len then ⟨db, 0, []⟩ else ⟨db, -1, [off, off + 1]⟩) := by
  by_cases h : off = a.len
  · rw [if_pos h]
    constructor
    · exact fun r hr => absurd hr List.not_mem_nil
    · exact iff_of_true rfl ⟨[], h ▸ Laid.done⟩
    · intro offs hl t
      rw [(laid_end hw hl).2]
      exact (ite_self _).symm
  · rw [if_neg h]
    constructor
    · intro r hr
      simp only [List.mem_cons, List.not_mem_nil, or_false] at hr
      omega
    · apply iff_of_false (show ¬ (-1 : Int) = 0 by decide)
      rintro ⟨_, hl⟩
      exact h (laid_end hw hl).1
    · exact fun offs hl => absurd (laid_end hw hl).1 h

theorem Parses.cons (hw : WellFormed a off) (hpad : off + rtaAlign a.mem off ≤ a.len)
    (h : Parses a (off + rtaAlign a.mem off) max (enter a max off db) w) :
    Parses a off max db (addReads off w) := by
  constructor
  · intro r hr
    have := hw.1
    simp only [addReads, List.mem_cons] at hr
    obtain rfl | rfl | rfl | rfl | hr := hr
    · omega
    · omega
    · omega
    · omega
    · exact h.inside r hr
  · refine h.covered.trans ⟨fun ⟨offs, hl⟩ => ⟨off :: offs, .next hw hpad hl⟩, ?_⟩
    rintro ⟨offs, hl⟩
    obtain ⟨rest, _, hrest⟩ := laid_cons hw hpad hl
    exact ⟨rest, hrest⟩
  · intro offs hl t
    obtain ⟨rest, rfl, hrest⟩ := laid_cons hw hpad hl
    have ht := h.table rest hrest t
    rw [lastOf_cons]
    refine ht.trans ?_
    rw [enter]
    by_cases hty : rtaType a.mem off = t
    · subst hty
      by_cases hmax : rtaType a.mem off ≤ max
      · rw [if_pos hmax, if_pos hmax, if_pos hmax, if_pos rfl, Function.update_self]
      · rw [if_neg hmax, if_neg hmax, if_neg hmax]
    · have hne : (if rtaType a.mem off ≤ max then
          Function.update db (rtaType a.mem off) (some off) else db) t = db t := by
        split
        · exact Function.update_of_ne (Ne.symm hty) _ _
        · rfl
      rw [hne, if_neg hty]

theorem roomy_parses (max n : Nat) {off : Nat} (db : Nat → Option Nat) (hle : off ≤ a.len)
    (hn : a.len ≤ off + n) (h : Roomy a off) :
    ∃ w, walkFrom a max (n + 1) off db = some w ∧ Parses a off max db w := by
  induction n generalizing off db with
  | zero =>
      have hw : ¬ WellFormed a off := by
        intro hw
        have := hw.1
        omega
      refine ⟨_, ?_, parses_end hw hle (h off .start).1⟩
      rw [walk_stops hle hw]
      split <;> rfl
  | succ n ih =>
      by_cases hw : WellFormed a off
      · have hpad := (h off .start).2 hw
        have halign := rtaAlign_bounds a.mem off
        have hlen := hw.2.1
        obtain ⟨w, hwalk, hp⟩ := ih (enter a max off db) hpad (by omega)
          (fun x hx => h x (hx.cons hw hpad))
        refine ⟨addReads off w, ?_, hp.cons hw hpad⟩
        rw [walk_next hw hpad, hwalk]
        rfl
      · refine ⟨_, ?_, parses_end hw hle (h off .start).1⟩
        rw [walk_stops hle hw]
        split <;> rfl

/-- A walk that ends has been at every offset at which it arrives. -/
theorem arrives_walk {start : Nat} (h : Arrives a start off) (hs : start ≤ a.len)
    (hwalk : walkFrom a max fuel start db = some w) : off ≤ a.len ∧
      ∃ fuel' db' w', walkFrom a max fuel' off db' = some w' ∧ w'.reads ⊆ w.reads := by
  induction h with
  | start => exact ⟨hs, fuel, db, w, hwalk, List.Subset.refl _⟩
  | next _ hw hpad ih =>
      obtain ⟨-, fuel', db', w', hwalk', hsub⟩ := ih
      cases fuel' with
      | zero => exact absurd hwalk'.symm (Option.some_ne_none w')
      | succ fuel' =>
          rw [walk_next hw hpad] at hwalk'
          obtain ⟨v, hv, rfl⟩ := Option.map_eq_some_iff.mp hwalk'
          refine ⟨hpad, fuel', _, v, hv, fun r hr => hsub ?_⟩
          simp only [addReads, List.mem_cons]
          exact .inr (.inr (.inr (.inr hr)))

theorem parses_roomy (hwalk : walkFrom a max fuel 0 db = some w) (hp : Parses a 0 max db w) :
    Roomy a 0 := by
  intro off ha
  obtain ⟨hle, fuel', db', w', hwalk', hsub⟩ := arrives_walk ha (Nat.zero_le _) hwalk
  constructor
  · intro hone
    have hw : ¬ WellFormed a off := by
      intro hw
      have := hw.1
      omega
    cases fuel' with
    | zero => exact absurd hwalk'.symm (Option.some_ne_none w')
    | succ fuel' =>
        rw [walk_stops hle hw, if_neg (by omega)] at hwalk'
        obtain rfl := Option.some.inj hwalk'
        have := hp.inside (off + 1) (hsub (List.mem_cons_of_mem _ List.mem_cons_self))
        omega
  · intro hw
    by_contra hpad
    obtain ⟨r, hr, hout⟩ := walk_outside hw (by omega) hwalk'
    have := hp.inside r (hsub hr)
    omega

/-- The walk is right just in case there is room at the end of the area: for the padding of
the last attribute, and for two bytes where any are left. -/
theorem rtnlParseRtattr_iff (a : Area) (max : Nat) (db : Nat → Option Nat) :
    (∃ fuel w, rtnlParseRtattr a.mem max fuel 0 a.len db = some w ∧ Parses a 0 max db w) ↔
      Roomy a 0 := by
  constructor
  · rintro ⟨fuel, w, hwalk, hp⟩
    exact parses_roomy hwalk hp
  · intro h
    obtain ⟨w, hwalk, hp⟩ := roomy_parses max a.len db (Nat.zero_le _) (Nat.le_add_left _ _) h
    exact ⟨_, w, hwalk, hp⟩

def unpadded : Area := ⟨fun i => if i = 0 then 5 else 0, 5, by decide⟩

theorem unpadded_outside : ¬ ∃ fuel w,
    rtnlParseRtattr unpadded.mem 4 fuel 0 unpadded.len (fun _ => none) = some w ∧
      Parses unpadded 0 4 (fun _ => none) w := by
  rintro ⟨fuel, w, hwalk, hp⟩
  have hpad := (parses_roomy hwalk hp 0 .start).2 ⟨by decide, by decide, by decide⟩
  exact absurd hpad (by decide)

end Vppsb.RtattrWalk
