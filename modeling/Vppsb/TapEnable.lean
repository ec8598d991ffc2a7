import Vppsb.TapIsr

namespace Vppsb.TapEnable

open Vppsb.StepRun Vppsb.TapLookups
open Vppsb.TapIsr (enableLoop disableLoop Inside connect_done connect_inside disableLoop_spec)

structure Flags where
  configEnable : Bool
  configDisable : Bool
  configNetlink : Bool
  enabled : Bool

inductive Protocol where
  | icmp | icmp6 | ospf | tcp | udp
deriving DecidableEq

inductive Node where
  | neighbor | tx
deriving DecidableEq

inductive Registration where
  | ethernetArp (node : Node)
  | ip4 (protocol : Protocol) (node : Node)
  | ip6 (protocol : Protocol) (node : Node)
  | mfibLocalMulticast
deriving DecidableEq

/-- The part of `tap_inject_main_t` that enabling uses, with the calls of `netns_open` and
the registrations that have been made. -/
structure TapInject where
  flags : Flags
  taps : TapLookups.State
  interfacesToEnable : List Nat
  interfacesToDisable : List Nat
  interruptPending : Bool
  netnsOpens : Nat
  registered : List Registration

/-- The hardware interfaces at the time of a call, and how the system calls end. -/
structure Env where
  hwInterfaces : List Nat
  isEthernet : Nat → Bool
  outcome : Nat → Outcome

inductive Word where
  | enable | disable | netlinkOnly | other

def configLoop : Flags → List Word → Option Flags
  | fl, [] => some fl
  | fl, .enable :: ws => configLoop { fl with configEnable := true } ws
  | fl, .disable :: ws => configLoop { fl with configDisable := true } ws
  | fl, .netlinkOnly :: ws => configLoop { fl with configNetlink := true } ws
  | _, .other :: _ => none

def tapInjectConfig (fl : Flags) (ws : List Word) : Option Flags := do
  let fl ← configLoop fl ws
  if fl.configEnable && fl.configDisable then none else some fl

def tapInjectEnableNetlink (s : TapInject) : TapInject := { s with netnsOpens := s.netnsOpens + 1 }

/-- ARP and ICMP6 go to the neighbor node, the remaining protocols to the other one. -/
def enableProtocols : List Registration :=
  [.ethernetArp .neighbor, .ip6 .icmp6 .neighbor, .ip4 .icmp .tx, .ip4 .ospf .tx, .ip4 .tcp .tx,
    .ip4 .udp .tx, .ip6 .ospf .tx, .ip6 .tcp .tx, .ip6 .udp .tx, .mfibLocalMulticast]

def tapInjectDisable (s : TapInject) : TapInject := { s with flags.enabled := false }

def tapInjectEnable (s : TapInject) : TapInject :=
  if s.flags.enabled then s
  else
    let s := tapInjectEnableNetlink s
    if s.flags.configNetlink then { s with flags.enabled := true }
    else { s with registered := s.registered ++ enableProtocols, flags.enabled := true }

def tapInjectIfaceIsr (env : Env) (s : TapInject) : Option (TapInject × Bool) := do
  let r := enableLoop env.isEthernet env.outcome 0 s.taps s.interfacesToEnable
  let taps ← disableLoop r.1 s.interfacesToDisable
  some ({ s with taps := taps, interfacesToEnable := [], interfacesToDisable := [] }, r.2)

def tapInjectInterfaceAddDel (s : TapInject) (hwIfIndex : Nat) (add : Bool) : TapInject :=
  if s.flags.configEnable = false then s
  else
    let s := tapInjectEnable s
    let s :=
      if add then { s with interfacesToEnable := s.interfacesToEnable ++ [hwIfIndex] }
      else { s with interfacesToDisable := s.interfacesToDisable ++ [hwIfIndex] }
    { s with interruptPending := true }

def tapInjectEnableDisableAllInterfaces (env : Env) (s : TapInject) (enable : Bool) :
    Option (TapInject × Bool) :=
  let s := if enable then tapInjectEnable s else tapInjectDisable s
  let s :=
    if enable then { s with interfacesToEnable := s.interfacesToEnable ++ env.hwInterfaces }
    else { s with interfacesToDisable := s.interfacesToDisable ++ env.hwInterfaces }
  tapInjectIfaceIsr env s

def tapInjectCli (env : Env) (s : TapInject) (enable : Bool) : Option (TapInject × Bool) :=
  if enable then
    if s.flags.configDisable then some (s, false)
    else do
      let r ← tapInjectEnableDisableAllInterfaces env s true
      if r.2 = false then do
        let r ← tapInjectEnableDisableAllInterfaces env r.1 false
        some (r.1, false)
      else some ({ r.1 with flags.configEnable := true }, true)
  else do
    let r ← tapInjectEnableDisableAllInterfaces env s false
    some ({ r.1 with flags.configEnable := false }, true)

inductive Event where
  | addDel (hwIfIndex : Nat) (add : Bool)
  | isr (env : Env)
  | cli (env : Env) (enable : Bool)

/-- The dispatch of the node takes the interrupt away. -/
def step (s : TapInject) : Event → Option TapInject
  | .addDel hw add => some (tapInjectInterfaceAddDel s hw add)
  | .isr env => (tapInjectIfaceIsr env { s with interruptPending := false }).map (fun r => r.1)
  | .cli env enable => (tapInjectCli env s enable).map (fun r => r.1)

def noFlags : Flags := ⟨false, false, false, false⟩

def launched (fl : Flags) : TapInject := ⟨fl, TapLookups.start, [], [], false, 0, []⟩

def Descriptors : Event → Prop
  | .addDel _ _ => True
  | .isr env | .cli env _ => ∀ k fd, (env.outcome k).openTun = some fd → fd < noIndex

def HasTap (s : TapInject) (hw : Nat) : Prop := tapInjectLookupTapFd s.taps.im hw ≠ noIndex

/-- The calls of `netns_open`, with the one that is due when it is enabled again. -/
def spent (s : TapInject) : Nat := s.netnsOpens + if s.flags.enabled then 0 else 1

variable {s t : TapInject} {env : Env} {u v : TapLookups.State}

section Loops

theorem connect_not_done (u : TapLookups.State) (hw : Nat) {o : Outcome} (ho : o.succeeds = false) :
    (tapInjectTapConnect u hw o).2 = false ∧ (tapInjectTapConnect u hw o).1.im = u.im := by
  obtain ⟨openTun, tunSetIff, fionbio, socket, siocSifHwaddr, siocGifIndex⟩ := o
  cases openTun with
  | none => exact ⟨rfl, rfl⟩
  | some tapFd =>
    cases tunSetIff with
    | false => exact ⟨rfl, rfl⟩
    | true =>
      cases fionbio with
      | false => exact ⟨rfl, rfl⟩
      | true =>
        cases socket with
        | none => exact ⟨rfl, rfl⟩
        | some fd =>
          cases siocSifHwaddr with
          | false => exact ⟨rfl, rfl⟩
          | true =>
            cases siocGifIndex with
            | none => exact ⟨rfl, rfl⟩
            | some ifindex => exact absurd ho.symm Bool.false_ne_true

structure Enabled (isEthernet : Nat → Bool) (u : TapLookups.State) (hws : List Nat)
    (r : TapLookups.State × Bool) : Prop where
  inside : Inside r.1
  done : r.2 = true → ∀ hw ∈ hws, isEthernet hw = true → tapInjectLookupTapFd r.1.im hw ≠ noIndex
  kept : ∀ hw, tapInjectLookupTapFd u.im hw ≠ noIndex → tapInjectLookupTapFd r.1.im hw ≠ noIndex
  other : ∀ hw, hw ∉ hws → tapInjectLookupTapFd r.1.im hw = tapInjectLookupTapFd u.im hw

theorem enableLoop_enabled (isEthernet : Nat → Bool) {outcome : Nat → Outcome}
    (hfd : ∀ k fd, (outcome k).openTun = some fd → fd < noIndex) (hws : List Nat) {k : Nat}
    {u : TapLookups.State} (hu : Inside u) :
    Enabled isEthernet u hws (enableLoop isEthernet outcome k u hws) := by
  induction hws generalizing k u with
  | nil => exact ⟨hu, fun _ hw h => absurd h List.not_mem_nil, fun _ h => h, fun _ _ => rfl⟩
  | cons hw rest ih =>
    by_cases he : isEthernet hw = true
    · cases ho : (outcome k).succeeds with
      | false =>
        obtain ⟨hfail, him⟩ := connect_not_done u hw ho
        have hrun : enableLoop isEthernet outcome k u (hw :: rest) =
            ((tapInjectTapConnect u hw (outcome k)).1, false) := by
          rw [enableLoop, if_pos he]
          generalize tapInjectTapConnect u hw (outcome k) = r at hfail
          obtain ⟨u', ok⟩ := r
          cases hfail
          rfl
        rw [hrun]
        refine ⟨?_, fun h => absurd h Bool.false_ne_true, fun x h => ?_, fun x _ => ?_⟩
        · rw [Inside, him]
          exact hu
        · rwa [him]
        · rw [him]
      | true =>
        obtain ⟨hin, htap, hother⟩ := connect_inside hu hw ho (hfd k)
        obtain ⟨_, _, _, hok, _⟩ := connect_done u hw ho
        have hrun : enableLoop isEthernet outcome k u (hw :: rest) =
            enableLoop isEthernet outcome (k + 1) (tapInjectTapConnect u hw (outcome k)).1 rest := by
          rw [enableLoop, if_pos he]
          generalize tapInjectTapConnect u hw (outcome k) = r at hok
          obtain ⟨u', ok⟩ := r
          cases hok
          rfl
        obtain ⟨hin', hdone, hkept, hsame⟩ := @ih (k + 1) _ hin
        rw [hrun]
        refine ⟨hin', fun h x hx hex => ?_, fun x h => ?_, fun x hx => ?_⟩
        · obtain rfl | hx := List.mem_cons.mp hx
          · exact hkept x htap
          · exact hdone h x hx hex
        · by_cases hxh : x = hw
          · rw [hxh]
            exact hkept hw htap
          · exact hkept x ((hother x hxh).symm ▸ h)
        · obtain ⟨hxh, hx⟩ := List.ne_and_not_mem_of_not_mem_cons hx
          rw [hsame x hx, hother x hxh]
    · have hrun : enableLoop isEthernet outcome k u (hw :: rest) =
          enableLoop isEthernet outcome k u rest := by
        rw [enableLoop, if_neg he]
      obtain ⟨hin, hdone, hkept, hsame⟩ := @ih k _ hu
      rw [hrun]
      refine ⟨hin, fun h x hx hex => ?_, hkept, fun x hx => ?_⟩
      · obtain rfl | hx := List.mem_cons.mp hx
        · exact absurd hex he
        · exact hdone h x hx hex
      · exact hsame x (List.not_mem_of_not_mem_cons hx)

structure Routine (env : Env) (s t : TapInject) (ok : Bool) : Prop where
  inside : Inside t.taps
  rest : t = { s with taps := t.taps, interfacesToEnable := [], interfacesToDisable := [] }
  enabled : ok = true → ∀ hw ∈ s.interfacesToEnable, env.isEthernet hw = true →
    hw ∉ s.interfacesToDisable → HasTap t hw
  disabled : ∀ hw ∈ s.interfacesToDisable, ¬ HasTap t hw
  other : ∀ hw, hw ∉ s.interfacesToEnable → hw ∉ s.interfacesToDisable → (HasTap t hw ↔ HasTap s hw)

theorem isr_routine (hs : Inside s.taps)
    (hfd : ∀ k fd, (env.outcome k).openTun = some fd → fd < noIndex) :
    ∃ t ok, tapInjectIfaceIsr env s = some (t, ok) ∧ Routine env s t ok := by
  obtain ⟨hin, hdone, hkept, hsame⟩ :=
    @enableLoop_enabled env.isEthernet env.outcome hfd s.interfacesToEnable 0 _ hs
  obtain ⟨taps, hdis, hin', hiff⟩ := disableLoop_spec s.interfacesToDisable hin
  refine ⟨_, _, by rw [tapInjectIfaceIsr, hdis]; rfl, hin', rfl, fun hok hw hmem he hd => ?_,
    fun hw hmem h => ?_, fun hw hne hnd => ?_⟩
  · exact (hiff hw).mpr ⟨hd, hdone hok hw hmem he⟩
  · exact ((hiff hw).mp h).1 hmem
  · rw [HasTap, HasTap, hiff, hsame hw hne]
    exact ⟨fun h => h.2, fun h => ⟨hnd, h⟩⟩

end Loops

/-- What the configuration and the calls of `tap_inject_enable` have led to. -/
structure Config (fl : Flags) (s : TapInject) : Prop where
  inside : Inside s.taps
  disable : s.flags.configDisable = fl.configDisable
  netlink : s.flags.configNetlink = fl.configNetlink
  locked : fl.configDisable = true → s.flags.configEnable = false ∧ s.netnsOpens = 0
  registered : s.registered = if fl.configNetlink then []
    else (List.replicate s.netnsOpens enableProtocols).flatten
  opened : s.flags.enabled = true → 0 < s.netnsOpens
  quiet : s.netnsOpens = 0 → s.interfacesToEnable = [] ∧ ∀ hw, ¬ HasTap s hw

variable {fl : Flags} {ok : Bool}

theorem Config.enable (hs : Config fl s) (hd : fl.configDisable = false) :
    Config fl (tapInjectEnable s) ∧ (tapInjectEnable s).flags.enabled = true ∧
      0 < (tapInjectEnable s).netnsOpens := by
  by_cases hen : s.flags.enabled = true
  · rw [tapInjectEnable, if_pos hen]
    exact ⟨hs, hen, hs.opened hen⟩
  · have hlock : ∀ P, fl.configDisable = true → P := fun P h => by
      rw [hd] at h
      cases h
    have hreg := hs.registered
    cases hnet : s.flags.configNetlink with
    | true =>
      rw [← hs.netlink, hnet] at hreg
      have hrun : tapInjectEnable s =
          { s with netnsOpens := s.netnsOpens + 1, flags.enabled := true } := by
        rw [tapInjectEnable, if_neg hen]
        exact if_pos hnet
      rw [hrun]
      refine ⟨⟨hs.inside, hs.disable, hs.netlink, hlock _, ?_, fun _ => Nat.succ_pos _,
        fun h => absurd h (Nat.succ_ne_zero _)⟩, rfl, Nat.succ_pos _⟩
      rw [← hs.netlink, hnet]
      exact hreg
    | false =>
      rw [← hs.netlink, hnet, if_neg Bool.false_ne_true] at hreg
      have hrun : tapInjectEnable s = { s with
          netnsOpens := s.netnsOpens + 1
          registered := s.registered ++ enableProtocols
          flags.enabled := true } := by
        rw [tapInjectEnable, if_neg hen]
        exact if_neg (hnet ▸ Bool.false_ne_true)
      rw [hrun]
      refine ⟨⟨hs.inside, hs.disable, hs.netlink, hlock _, ?_, fun _ => Nat.succ_pos _,
        fun h => absurd h (Nat.succ_ne_zero _)⟩, rfl, Nat.succ_pos _⟩
      rw [← hs.netlink, hnet, if_neg Bool.false_ne_true, List.replicate_succ', List.flatten_append,
        ← hreg]
      rfl

theorem Config.isr (hs : Config fl s)
    (hfd : ∀ k fd, (env.outcome k).openTun = some fd → fd < noIndex) :
    ∃ t ok, tapInjectIfaceIsr env s = some (t, ok) ∧ Routine env s t ok ∧ Config fl t := by
  obtain ⟨t, ok, ht, hr⟩ := isr_routine hs.inside hfd
  refine ⟨t, ok, ht, hr, ?_⟩
  have hquiet : s.netnsOpens = 0 → ∀ hw, ¬ HasTap t hw := by
    intro h hw
    obtain ⟨hnil, hno⟩ := hs.quiet h
    by_cases hd : hw ∈ s.interfacesToDisable
    · exact hr.disabled hw hd
    · rw [hr.other hw (hnil ▸ List.not_mem_nil) hd]
      exact hno hw
  have hin := hr.inside
  rw [hr.rest] at hquiet ⊢
  exact ⟨hin, hs.disable, hs.netlink, hs.locked, hs.registered, hs.opened,
    fun h => ⟨rfl, hquiet h⟩⟩

theorem enable_same (s : TapInject) : (tapInjectEnable s).taps = s.taps ∧
    (tapInjectEnable s).interfacesToEnable = s.interfacesToEnable ∧
    (tapInjectEnable s).interfacesToDisable = s.interfacesToDisable ∧
    (tapInjectEnable s).flags.configEnable = s.flags.configEnable := by
  rw [tapInjectEnable]
  split
  · exact ⟨rfl, rfl, rfl, rfl⟩
  · dsimp only
    split <;> exact ⟨rfl, rfl, rfl, rfl⟩

theorem spent_enable (s : TapInject) : spent (tapInjectEnable s) = spent s := by
  by_cases hen : s.flags.enabled = true
  · rw [tapInjectEnable, if_pos hen]
  · rw [tapInjectEnable, if_neg hen]
    dsimp only
    split <;> simp [spent, tapInjectEnableNetlink, hen]

theorem spent_disable (s : TapInject) : spent (tapInjectDisable s) ≤ spent s + 1 := by
  show s.netnsOpens + 1 ≤ spent s + 1
  exact Nat.succ_le_succ (Nat.le_add_right _ _)

theorem Config.queue (hs : Config fl s) (hpos : 0 < s.netnsOpens) (toEnable toDisable : List Nat) :
    Config fl { s with interfacesToEnable := toEnable, interfacesToDisable := toDisable } :=
  ⟨hs.inside, hs.disable, hs.netlink, hs.locked, hs.registered, hs.opened,
    fun h => absurd h (Nat.ne_of_gt hpos)⟩

/-- All interfaces have been queued, in one of the two lists, before the routine runs. -/
structure Swept (env : Env) (s t : TapInject) (enable ok : Bool) : Prop where
  queues : t.interfacesToEnable = [] ∧ t.interfacesToDisable = []
  flags : t.flags.enabled = enable ∧ t.flags.configEnable = s.flags.configEnable
  opens : spent t ≤ spent s + if enable then 0 else 1
  connected : enable = true → ok = true → ∀ hw ∈ env.hwInterfaces, env.isEthernet hw = true →
    hw ∉ s.interfacesToDisable → HasTap t hw
  disconnected : enable = false → ∀ hw ∈ env.hwInterfaces, ¬ HasTap t hw
  other : ∀ hw, hw ∉ env.hwInterfaces → hw ∉ s.interfacesToEnable → hw ∉ s.interfacesToDisable →
    (HasTap t hw ↔ HasTap s hw)

theorem Config.enableAll (hs : Config fl s) (hd : fl.configDisable = false)
    (hfd : ∀ k fd, (env.outcome k).openTun = some fd → fd < noIndex) :
    ∃ t ok, tapInjectEnableDisableAllInterfaces env s true = some (t, ok) ∧ Config fl t ∧
      Swept env s t true ok := by
  obtain ⟨hconf, hen, hpos⟩ := hs.enable hd
  obtain ⟨htaps, hte, htd, hce⟩ := enable_same s
  obtain ⟨t, ok, ht, hr, hct⟩ := (hconf.queue hpos
    ((tapInjectEnable s).interfacesToEnable ++ env.hwInterfaces) _).isr hfd
  refine ⟨t, ok, ht, hct, ?_⟩
  have hrest := hr.rest
  constructor
  case queues =>
    rw [hrest]
    exact ⟨rfl, rfl⟩
  case flags =>
    rw [hrest]
    exact ⟨hen, hce⟩
  case opens =>
    rw [hrest]
    exact Nat.le_of_eq (spent_enable s)
  case connected =>
    intro _ hok hw hm he hnd
    rw [← htd] at hnd
    exact hr.enabled hok hw (List.mem_append_right _ hm) he hnd
  case disconnected => exact fun h => absurd h.symm Bool.false_ne_true
  case other =>
    intro hw hm hne hnd
    rw [← hte] at hne
    rw [← htd] at hnd
    have hiff := hr.other hw (List.not_mem_append hne hm) hnd
    rw [HasTap, htaps] at hiff
    exact hiff

theorem Config.disableAll (hs : Config fl s)
    (hfd : ∀ k fd, (env.outcome k).openTun = some fd → fd < noIndex) :
    ∃ t ok, tapInjectEnableDisableAllInterfaces env s false = some (t, ok) ∧ Config fl t ∧
      Swept env s t false ok := by
  have hconf : Config fl { tapInjectDisable s with
      interfacesToDisable := s.interfacesToDisable ++ env.hwInterfaces } :=
    ⟨hs.inside, hs.disable, hs.netlink, hs.locked, hs.registered,
      fun h => absurd h Bool.false_ne_true, hs.quiet⟩
  obtain ⟨t, ok, ht, hr, hct⟩ := hconf.isr hfd
  refine ⟨t, ok, ht, hct, ?_⟩
  have hrest := hr.rest
  constructor
  case queues =>
    rw [hrest]
    exact ⟨rfl, rfl⟩
  case flags =>
    rw [hrest]
    exact ⟨rfl, rfl⟩
  case opens =>
    rw [hrest]
    exact spent_disable s
  case connected => exact fun h => absurd h Bool.false_ne_true
  case disconnected => exact fun _ hw hm => hr.disabled hw (List.mem_append_right _ hm)
  case other => exact fun hw hm hne hnd => hr.other hw hne (List.not_mem_append hnd hm)

/-- What a command does. It enables everything or, if that fails, disables everything. -/
structure Commanded (env : Env) (s t : TapInject) (enable ok : Bool) : Prop where
  refused : enable = true → s.flags.configDisable = true → ok = false ∧ t = s
  enabled : enable = true → ok = true → t.flags.enabled = true ∧ t.flags.configEnable = true ∧
    ∀ hw ∈ env.hwInterfaces, env.isEthernet hw = true → hw ∉ s.interfacesToDisable → HasTap t hw
  undone : enable = true → s.flags.configDisable = false → ok = false →
    t.flags.enabled = false ∧ t.flags.configEnable = s.flags.configEnable ∧
      ∀ hw ∈ env.hwInterfaces, ¬ HasTap t hw
  disabled : enable = false → ok = true ∧ t.flags.enabled = false ∧ t.flags.configEnable = false ∧
    ∀ hw ∈ env.hwInterfaces, ¬ HasTap t hw
  other : ∀ hw, hw ∉ env.hwInterfaces → hw ∉ s.interfacesToEnable → hw ∉ s.interfacesToDisable →
    (HasTap t hw ↔ HasTap s hw)

theorem Config.cli (hs : Config fl s) (enable : Bool)
    (hfd : ∀ k fd, (env.outcome k).openTun = some fd → fd < noIndex) :
    ∃ t ok, tapInjectCli env s enable = some (t, ok) ∧ Config fl t ∧
      (t = s ∨ t.interfacesToEnable = [] ∧ t.interfacesToDisable = []) ∧ spent t ≤ spent s + 1 ∧
      Commanded env s t enable ok := by
  cases enable with
  | false =>
    obtain ⟨t, ok, ht, hct, hsw⟩ := hs.disableAll hfd
    have hconf : Config fl { t with flags.configEnable := false } :=
      ⟨hct.inside, hct.disable, hct.netlink, fun h => ⟨rfl, (hct.locked h).2⟩, hct.registered,
        hct.opened, hct.quiet⟩
    refine ⟨_, true, by rw [tapInjectCli, if_neg Bool.false_ne_true, ht]; rfl, hconf,
      Or.inr hsw.queues, hsw.opens, ?_⟩
    constructor
    case refused => exact fun h => absurd h Bool.false_ne_true
    case enabled => exact fun h => absurd h Bool.false_ne_true
    case undone => exact fun h => absurd h Bool.false_ne_true
    case disabled => exact fun _ => ⟨rfl, hsw.flags.1, rfl, hsw.disconnected rfl⟩
    case other => exact hsw.other
  | true =>
    cases hd : s.flags.configDisable with
    | true =>
      refine ⟨s, false, by rw [tapInjectCli, if_pos rfl, if_pos hd], hs, Or.inl rfl,
        Nat.le_succ _, ?_⟩
      constructor
      case refused => exact fun _ _ => ⟨rfl, rfl⟩
      case enabled => exact fun _ h => absurd h Bool.false_ne_true
      case undone => exact fun _ h => absurd (hd.symm.trans h).symm Bool.false_ne_true
      case disabled => exact fun h => absurd h.symm Bool.false_ne_true
      case other => exact fun _ _ _ _ => Iff.rfl
    | false =>
      have hd' : fl.configDisable = false := hs.disable.symm.trans hd
      obtain ⟨t, ok, ht, hct, hsw⟩ := hs.enableAll hd' hfd
      cases ok with
      | true =>
        have hconf : Config fl { t with flags.configEnable := true } :=
          ⟨hct.inside, hct.disable, hct.netlink, fun h => absurd (hd'.symm.trans h) Bool.false_ne_true,
            hct.registered, hct.opened, hct.quiet⟩
        refine ⟨_, true, ?_, hconf, Or.inr hsw.queues, Nat.le_succ_of_le hsw.opens, ?_⟩
        · simp only [tapInjectCli, hd, ht, if_true, Bool.false_eq_true, if_false,
            Option.bind_eq_bind, Option.bind_some, reduceCtorEq]
        · constructor
          case refused => exact fun _ h => absurd (hd.symm.trans h) Bool.false_ne_true
          case enabled => exact fun _ _ => ⟨hsw.flags.1, rfl, hsw.connected rfl rfl⟩
          case undone => exact fun _ _ h => absurd h.symm Bool.false_ne_true
          case disabled => exact fun h => absurd h.symm Bool.false_ne_true
          case other => exact hsw.other
      | false =>
        obtain ⟨t', ok', ht', hct', hsw'⟩ := hct.disableAll hfd
        have hopens : spent t' ≤ spent s + 1 := 
          Nat.le_trans hsw'.opens (Nat.succ_le_succ hsw.opens)
        refine ⟨t', false, ?_, hct', Or.inr hsw'.queues, hopens, ?_⟩
        · simp only [tapInjectCli, hd, ht, ht', if_true, Bool.false_eq_true, if_false,
            Option.bind_eq_bind, Option.bind_some]
        · constructor
          case refused => exact fun _ h => absurd (hd.symm.trans h) Bool.false_ne_true
          case enabled => exact fun _ h => absurd h Bool.false_ne_true
          case undone =>
            exact fun _ _ _ => ⟨hsw'.flags.1, hsw'.flags.2.trans hsw.flags.2,
              hsw'.disconnected rfl⟩
          case disabled => exact fun h => absurd h.symm Bool.false_ne_true
          case other =>
            intro hw hm hne hnd
            rw [hsw'.other hw hm (hsw.queues.1 ▸ List.not_mem_nil)
              (hsw.queues.2 ▸ List.not_mem_nil)]
            exact hsw.other hw hm hne hnd

/-- What is set up in a run, for the flags that the configuration has left. -/
structure SetUp (fl : Flags) (s : TapInject) : Prop where
  locked : fl.configDisable = true → s.flags.enabled = false ∧ s.netnsOpens = 0 ∧
    s.registered = [] ∧ ∀ hw, ¬ HasTap s hw
  registered : s.registered = if fl.configNetlink then []
    else (List.replicate s.netnsOpens enableProtocols).flatten
  opened : s.flags.enabled = true → 0 < s.netnsOpens
  tapped : ∀ hw, HasTap s hw → 0 < s.netnsOpens
  awake : s.interfacesToEnable ≠ [] ∨ s.interfacesToDisable ≠ [] → s.interruptPending = true

structure Waiting (fl : Flags) (s : TapInject) : Prop where
  config : Config fl s
  awake : s.interfacesToEnable ≠ [] ∨ s.interfacesToDisable ≠ [] → s.interruptPending = true

theorem Waiting.setUp (hs : Waiting fl s) : SetUp fl s := by
  obtain ⟨hc, hawake⟩ := hs
  refine ⟨fun h => ?_, hc.registered, hc.opened, fun hw htap => ?_, hawake⟩
  · have hzero := (hc.locked h).2
    have hreg := hc.registered
    rw [hzero, List.replicate_zero, List.flatten_nil, ite_self] at hreg
    refine ⟨?_, hzero, hreg, (hc.quiet hzero).2⟩
    cases hen : s.flags.enabled with
    | false => rfl
    | true => exact absurd (hc.opened hen) (by omega)
  · by_contra h
    exact (hc.quiet (by omega)).2 hw htap

theorem configLoop_enabled {ws : List Word} {fl fl' : Flags} (h : configLoop fl ws = some fl') :
    fl'.enabled = fl.enabled := by
  induction ws generalizing fl with
  | nil => exact congrArg Flags.enabled (Option.some.inj h).symm
  | cons w ws ih =>
    cases w with
    | enable =>
      have hrest := ih h
      exact hrest
    | disable =>
      have hrest := ih h
      exact hrest
    | netlinkOnly =>
      have hrest := ih h
      exact hrest
    | other => cases h

theorem launched_waiting {ws : List Word} (h : tapInjectConfig noFlags ws = some fl) :
    Waiting fl (launched fl) := by
  obtain ⟨fl', hloop, h⟩ := Option.bind_eq_some_iff.mp h
  have hoff := configLoop_enabled hloop
  split at h
  · cases h
  · rename_i hboth
    obtain rfl := Option.some.inj h
    refine ⟨⟨fun x hx => absurd rfl hx, rfl, rfl, fun hd => ⟨?_, rfl⟩, ?_, fun hen => ?_,
      fun _ => ⟨rfl, fun hw h => h rfl⟩⟩, fun h => ?_⟩
    · rw [hd, Bool.and_true] at hboth
      exact Bool.not_eq_true _ ▸ hboth
    · exact (ite_self _).symm
    · exact absurd (hoff.symm.trans hen) Bool.false_ne_true
    · exact h.elim (fun h => absurd rfl h) fun h => absurd rfl h

def commands : List Event → Nat
  | [] => 0
  | .cli _ _ :: es => commands es + 1
  | .addDel _ _ :: es | .isr _ :: es => commands es

theorem Waiting.step (hs : Waiting fl s) {e : Event} (he : Descriptors e) :
    ∃ t, step s e = some t ∧ Waiting fl t ∧ spent t ≤ spent s + commands [e] := by
  obtain ⟨hc, hawake⟩ := hs
  cases e with
  | addDel hw add =>
    refine ⟨_, rfl, ?_⟩
    by_cases hen : s.flags.configEnable = false
    · rw [tapInjectInterfaceAddDel, if_pos hen]
      exact ⟨⟨hc, hawake⟩, Nat.le_refl _⟩
    · have hd : fl.configDisable = false := by
        cases hd : fl.configDisable with
        | false => rfl
        | true => exact absurd (hc.locked hd).1 hen
      obtain ⟨hce, -, hpos⟩ := hc.enable hd
      have hspent := spent_enable s
      rw [tapInjectInterfaceAddDel, if_neg hen]
      cases add with
      | true =>
        have hq := hce.queue hpos ((tapInjectEnable s).interfacesToEnable ++ [hw])
          (tapInjectEnable s).interfacesToDisable
        exact ⟨⟨⟨hq.inside, hq.disable, hq.netlink, hq.locked, hq.registered, hq.opened, hq.quiet⟩,
          fun _ => rfl⟩, Nat.le_of_eq hspent⟩
      | false =>
        have hq := hce.queue hpos (tapInjectEnable s).interfacesToEnable
          ((tapInjectEnable s).interfacesToDisable ++ [hw])
        exact ⟨⟨⟨hq.inside, hq.disable, hq.netlink, hq.locked, hq.registered, hq.opened, hq.quiet⟩,
          fun _ => rfl⟩, Nat.le_of_eq hspent⟩
  | isr env =>
    have hc' : Config fl { s with interruptPending := false } :=
      ⟨hc.inside, hc.disable, hc.netlink, hc.locked, hc.registered, hc.opened, hc.quiet⟩
    obtain ⟨t, ok, ht, hr, hct⟩ := hc'.isr he
    refine ⟨t, by rw [TapEnable.step, ht]; rfl, ⟨hct, fun h => ?_⟩, ?_⟩
    · rw [hr.rest] at h
      exact h.elim (fun h => absurd rfl h) fun h => absurd rfl h
    · rw [hr.rest]
      exact Nat.le_refl _
  | cli env enable =>
    obtain ⟨t, ok, ht, hct, hq, hspent, -⟩ := hc.cli enable he
    refine ⟨t, by rw [TapEnable.step, ht]; rfl, ⟨hct, ?_⟩, hspent⟩
    obtain rfl | ⟨hte, htd⟩ := hq
    · exact hawake
    · rw [hte, htd]
      exact fun h => h.elim (fun h => absurd rfl h) fun h => absurd rfl h

theorem commands_cons (e : Event) (es : List Event) :
    commands (e :: es) = commands [e] + commands es := by
  cases e with
  | addDel hw add => exact (Nat.zero_add _).symm
  | isr env => exact (Nat.zero_add _).symm
  | cli env enable => exact Nat.add_comm _ _

theorem Waiting.run {events : List Event} (hs : Waiting fl s) (he : ∀ e ∈ events, Descriptors e) :
    ∃ t, StepRun.run TapEnable.step s events = some t ∧ Waiting fl t ∧
      spent t ≤ spent s + commands events := by
  induction events generalizing s with
  | nil => exact ⟨s, rfl, hs, Nat.le_refl _⟩
  | cons e events ih =>
    obtain ⟨u, hu, hsu, hle⟩ := hs.step (he e List.mem_cons_self)
    obtain ⟨t, ht, hst, hle'⟩ := ih hsu fun e h => he e (List.mem_cons_of_mem _ h)
    refine ⟨t, run_cons_eq_some.mpr ⟨u, hu, ht⟩, hst, ?_⟩
    rw [commands_cons]
    omega

/-- Whatever the configuration says and whatever happens later, nothing is set up against
the configuration, and netlink is opened at most once more than commands are given. -/
theorem run_setUp {ws : List Word} (h : tapInjectConfig noFlags ws = some fl) {events : List Event}
    (he : ∀ e ∈ events, Descriptors e) : ∃ s, run step (launched fl) events = some s ∧ SetUp fl s ∧
      s.netnsOpens ≤ commands events + 1 := by
  have hw := launched_waiting h
  obtain ⟨s, hs, hst, hle⟩ := hw.run he
  refine ⟨s, hs, hst.setUp, ?_⟩
  have hone : spent (launched fl) ≤ 1 := by
    rw [spent]
    split
    · exact Nat.zero_le _
    · exact Nat.le_refl _
  have hless : s.netnsOpens ≤ spent s := Nat.le_add_right _ _
  omega

def secondFails : Env :=
  ⟨[1, 2], fun _ => true, fun k => if k = 0 then allDone 5 6 9 else ⟨none, false, false, none, false, none⟩⟩

theorem secondFails_descriptors (enable : Bool) : Descriptors (.cli secondFails enable) := by
  intro k fd hfd
  simp only [secondFails] at hfd
  split at hfd
  · obtain rfl := Option.some.inj hfd
    decide
  · cases hfd

theorem run_setUp_sample : ∃ s,
    run step (launched ⟨true, false, false, false⟩) [.addDel 1 true, .isr secondFails] = some s ∧
      SetUp ⟨true, false, false, false⟩ s ∧ s.netnsOpens ≤ 1 := by
  have hw : tapInjectConfig noFlags [.enable] = some ⟨true, false, false, false⟩ := rfl
  refine run_setUp hw fun e he => ?_
  obtain rfl | he := List.mem_cons.mp he
  · trivial
  · obtain rfl := List.mem_singleton.mp he
    exact secondFails_descriptors true

end Vppsb.TapEnable
