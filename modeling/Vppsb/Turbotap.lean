import Vppsb.GrowVec
import Mathlib.Logic.Function.Basic

namespace Vppsb.Turbotap

open Vppsb.GrowVec

def noIndex : Nat := 0xffffffff

def iffUp : BitVec 16 := 0x1

def iffRunning : BitVec 16 := 0x40

def iffPromisc : BitVec 16 := 0x100

structure Ifreq where
  name : String
  flags : BitVec 16

/-- `turbotap_interface_t` without the messages. The descriptors are numbers as
`open` returns them, so that `-1` is none. -/
structure Interface where
  unixFd : Int
  unixFileIndex : Nat
  provisionFd : Int
  swIfIndex : Nat
  hwIfIndex : Nat
  isPromisc : Bool
  ifr : Ifreq
  perInterfaceNextIndex : Nat
  active : Bool
  mtuBytes : Nat
  mtuBuffers : Nat
  turbotapFd : Int
  sockFd : Int

def Interface.zero : Interface := ⟨0, 0, 0, 0, 0, false, ⟨"", 0⟩, 0, false, 0, 0, 0, 0⟩

def Interface.fds (ti : Interface) : List Int :=
  [ti.unixFd, ti.provisionFd, ti.turbotapFd, ti.sockFd]

/-- `turbotap_main_t`, with the descriptors that are open, the flags of the
devices by their names and the size of a buffer. -/
structure State where
  isDisabled : Bool
  mtuBytes : Nat
  turbotapInterfaces : List Interface
  turbotapInactiveInterfaces : List Nat
  pendingReadBitmap : List Bool
  turbotapInterfaceIndexBySwIfIndex : Nat → Option Nat
  turbotapInterfaceIndexByUnixFd : Int → Option Nat
  openFds : List Int
  devices : String → BitVec 16
  bufferSize : Nat

inductive ApiError where
  | featureDisabled
  | syscallError (n : Nat)
  | invalidRegistration
  | invalidSwIfIndex

/-- How `ethernet_register_interface` ends. A refusal may have written the
hardware index before. -/
inductive Registration where
  | refused (hwIfIndex : Option Nat)
  | done (hwIfIndex swIfIndex : Nat)

/-- How the calls in `vnet_turbotap_connect` end. A descriptor below `0` is a
failure, and `tunSetIff` is the new device. -/
structure Outcome where
  turbotapFd : Int
  devNetTunFd : Int
  tunSetIff : Option Ifreq
  devTapFd : Int
  siocGifIndex : Bool
  bind : Bool
  fionbio : Bool
  siocSifMtu : Bool
  siocGifFlags : Bool
  siocSifFlags : Bool
  sockFd : Int
  registration : Registration
  unixFileIndex : Nat

def Outcome.fds (o : Outcome) : List Int := [o.turbotapFd, o.devNetTunFd, o.devTapFd, o.sockFd]

def State.opened (s : State) (fd : Int) : State := { s with openFds := fd :: s.openFds }

def State.close (s : State) (fd : Int) : State :=
  { s with openFds := s.openFds.filter (fun g => decide (g ≠ fd)) }

def State.setDevice (s : State) (ifr : Ifreq) : State :=
  { s with devices := Function.update s.devices ifr.name ifr.flags }

def State.edit (s : State) (i : Nat) (f : Interface → Interface) : State :=
  { s with turbotapInterfaces := s.turbotapInterfaces.modify i f }

def mtuBuffers (mtuBytes bufferSize : Nat) : Nat := (mtuBytes + (bufferSize - 1)) / bufferSize

/-- The device is made and brought up. The second value is the provisioning
socket, as far as it has been opened. -/
def provision (s : State) (o : Outcome) : State × Int × Except ApiError Ifreq :=
  match o.tunSetIff with
  | none => (s, -1, .error (.syscallError 2))
  | some ifr =>
    let s := s.setDevice ifr
    if o.devTapFd < 0 then (s, o.devTapFd, .error (.syscallError 3))
    else
      let s := s.opened o.devTapFd
      if o.siocGifIndex = false then (s, o.devTapFd, .error (.syscallError 4))
      else if o.bind = false then (s, o.devTapFd, .error (.syscallError 5))
      else if o.fionbio = false then (s, o.devTapFd, .error (.syscallError 6))
      else if o.siocSifMtu = false then (s, o.devTapFd, .error (.syscallError 7))
      else if o.siocGifFlags = false then (s, o.devTapFd, .error (.syscallError 8))
      else if o.siocSifFlags = false then (s, o.devTapFd, .error (.syscallError 9))
      else
        let ifr := { ifr with flags := s.devices ifr.name ||| (iffUp ||| iffRunning) }
        (s.setDevice ifr, o.devTapFd, .ok ifr)

def turbotapGetNewTapif (s : State) : State × Nat :=
  let fresh (s : State) : State × Nat :=
    ({ s with turbotapInterfaces := s.turbotapInterfaces ++ [Interface.zero] },
      s.turbotapInterfaces.length)
  match s.turbotapInactiveInterfaces.getLast? with
  | none => fresh s
  | some tiIdx =>
    let s := { s with turbotapInactiveInterfaces := s.turbotapInactiveInterfaces.dropLast }
    if tiIdx < s.turbotapInterfaces.length then (s, tiIdx) else fresh s

def connected (s : State) (o : Outcome) (ifr : Ifreq) (hwIfIndex swIfIndex : Nat)
    (ti : Interface) : Interface :=
  { ti with
    hwIfIndex := hwIfIndex
    unixFileIndex := o.unixFileIndex
    unixFd := o.devNetTunFd
    provisionFd := o.devTapFd
    turbotapFd := o.turbotapFd
    sockFd := o.sockFd
    mtuBytes := s.mtuBytes
    mtuBuffers := mtuBuffers s.mtuBytes s.bufferSize
    ifr := ifr
    swIfIndex := swIfIndex
    active := true }

def closeAll (s : State) (devNetTunFd devTapFd turbotapFd sockFd : Int) : State :=
  (((s.close devNetTunFd).close devTapFd).close turbotapFd).close sockFd

/-- The name and the hardware address of the interface go to the kernel and to
`vnet` only, and are left out. -/
def vnetTurbotapConnect (s : State) (o : Outcome) : State × Except ApiError Nat :=
  if s.isDisabled then (s, .error .featureDisabled)
  else if o.turbotapFd < 0 then (s, .error (.syscallError 1))
  else
    let s := s.opened o.turbotapFd
    -- the first descriptor stays open here
    if o.devNetTunFd < 0 then (s, .error (.syscallError 1))
    else
      match provision (s.opened o.devNetTunFd) o with
      | (s, devTapFd, .error e) => (closeAll s o.devNetTunFd devTapFd o.turbotapFd (-1), .error e)
      | (s, devTapFd, .ok ifr) =>
        let r := turbotapGetNewTapif s
        let s := r.1.edit r.2 (fun ti => { ti with perInterfaceNextIndex := noIndex })
        if o.sockFd < 0 then
          (closeAll s o.devNetTunFd devTapFd o.turbotapFd o.sockFd, .error (.syscallError 2))
        else
          let s := s.opened o.sockFd
          match o.registration with
          | .refused hw =>
            let s := s.edit r.2 (fun ti => { ti with hwIfIndex := hw.getD ti.hwIfIndex })
            (closeAll s o.devNetTunFd devTapFd o.turbotapFd o.sockFd, .error .invalidRegistration)
          | .done hw sw =>
            let s := s.edit r.2 (connected s o ifr hw sw)
            ({ s with
                turbotapInterfaceIndexBySwIfIndex :=
                  Function.update s.turbotapInterfaceIndexBySwIfIndex sw (some r.2)
                turbotapInterfaceIndexByUnixFd :=
                  Function.update s.turbotapInterfaceIndexByUnixFd o.devNetTunFd (some r.2) },
              .ok sw)

def turbotapTapDisconnect (s : State) (i : Nat) (ti : Interface) : State :=
  let s := s.edit i (fun ti => { ti with unixFileIndex := noIndex })
  let s :=
    { s with
      turbotapInterfaceIndexByUnixFd :=
        Function.update s.turbotapInterfaceIndexByUnixFd ti.unixFd none
      turbotapInterfaceIndexBySwIfIndex :=
        Function.update s.turbotapInterfaceIndexBySwIfIndex ti.swIfIndex none }
  let s := (((s.close ti.unixFd).close ti.provisionFd).close ti.turbotapFd).close ti.sockFd
  s.edit i (fun ti => { ti with unixFd := -1, provisionFd := -1, turbotapFd := -1, sockFd := -1 })

def vnetTurbotapDelete (s : State) (swIfIndex : Nat) : Option (State × Except ApiError Unit) :=
  match s.turbotapInterfaceIndexBySwIfIndex swIfIndex with
  | none => some (s, .error .invalidSwIfIndex)
  | some i => do
    let ti ← s.turbotapInterfaces[i]?
    let s := turbotapTapDisconnect (s.edit i (fun ti => { ti with active := false })) i ti
    some ({ s with turbotapInactiveInterfaces := s.turbotapInactiveInterfaces ++ [i] }, .ok ())

structure EthernetFlags where
  acceptAll : Bool
  mtu : Bool

/-- `getFlags` and `setFlags` tell which of the two calls of `ioctl` succeed. -/
def turbotapFlagChange (s : State) (devInstance maxPacketBytes : Nat) (flags : EthernetFlags)
    (getFlags setFlags : Bool) : Option State := do
  let ti ← s.turbotapInterfaces[devInstance]?
  if flags.mtu then
    some (s.edit devInstance (fun ti =>
      { ti with mtuBytes := maxPacketBytes, mtuBuffers := mtuBuffers maxPacketBytes s.bufferSize }))
  else if getFlags = false then some s
  else
    let ifrFlags := s.devices ti.ifr.name
    let wantPromisc := flags.acceptAll
    if wantPromisc = ti.isPromisc then some s
    else
      let ifrFlags := if flags.acceptAll then ifrFlags ||| iffPromisc else ifrFlags &&& ~~~iffPromisc
      if setFlags = false then some s
      else
        some ((s.setDevice ⟨ti.ifr.name, ifrFlags⟩).edit devInstance (fun ti =>
          { ti with isPromisc := wantPromisc }))

def clibBitmapSet (bitmap : List Bool) (i : Nat) (value : Bool) : List Bool :=
  (validate bitmap i false).set i value

def clibBitmapGet (bitmap : List Bool) (i : Nat) : Bool := bitmap.getD i false

def turbotapReadReady (s : State) (fileDescriptor : Int) : State :=
  match s.turbotapInterfaceIndexByUnixFd fileDescriptor with
  | some i => { s with pendingReadBitmap := clibBitmapSet s.pendingReadBitmap i true }
  | none => s

/-- The second value lists the interfaces on which `turbotap_rx_iface` is called,
each as it is at the time of the call. -/
def rxLoop : State → List Nat → Option (State × List Interface)
  | s, [] => some (s, [])
  | s, i :: rest => do
    let s := { s with pendingReadBitmap := clibBitmapSet s.pendingReadBitmap i false }
    let ti ← s.turbotapInterfaces[i]?
    let r ← rxLoop s rest
    some (r.1, ti :: r.2)

def turbotapRx (s : State) : Option (State × List Interface) :=
  rxLoop s ((List.range s.pendingReadBitmap.length).filter (clibBitmapGet s.pendingReadBitmap))

inductive Event where
  | connect (outcome : Outcome)
  | delete (swIfIndex : Nat)
  | flagChange (devInstance maxPacketBytes : Nat) (flags : EthernetFlags) (getFlags setFlags : Bool)
  | readReady (fileDescriptor : Int)
  | rx

def step (s : State) : Event → Option State
  | .connect o => some (vnetTurbotapConnect s o).1
  | .delete sw => (vnetTurbotapDelete s sw).map (fun r => r.1)
  | .flagChange i maxPacketBytes flags getFlags setFlags =>
    turbotapFlagChange s i maxPacketBytes flags getFlags setFlags
  | .readReady fd => some (turbotapReadReady s fd)
  | .rx => (turbotapRx s).map (fun r => r.1)

def start (isDisabled : Bool) (mtuBytes bufferSize : Nat) (devices : String → BitVec 16) : State :=
  { isDisabled := isDisabled
    mtuBytes := mtuBytes
    turbotapInterfaces := []
    turbotapInactiveInterfaces := []
    pendingReadBitmap := []
    turbotapInterfaceIndexBySwIfIndex := fun _ => none
    turbotapInterfaceIndexByUnixFd := fun _ => none
    openFds := []
    devices := devices
    bufferSize := bufferSize }

def ActiveAt (slots : List Interface) (i : Nat) (ti : Interface) : Prop :=
  slots[i]? = some ti ∧ ti.active = true

/-- The kernel hands out descriptors that are not in use, `vnet` hands out the
index of an interface once at a time and changes the flags of the interfaces
that it has. -/
def Possible (s : State) : Event → Prop
  | .connect o => (∀ fd ∈ o.fds, 0 ≤ fd → fd ∉ s.openFds) ∧
      ∀ hw sw, o.registration = .done hw sw → ∀ i ti, ActiveAt s.turbotapInterfaces i ti →
        ti.swIfIndex ≠ sw
  | .flagChange i _ _ _ _ => ∃ ti, ActiveAt s.turbotapInterfaces i ti
  | _ => True

def Outcome.provisioned (o : Outcome) : Bool :=
  o.tunSetIff.isSome && decide (0 ≤ o.devTapFd) && o.siocGifIndex && o.bind && o.fionbio &&
    o.siocSifMtu && o.siocGifFlags && o.siocSifFlags

def Registration.isDone : Registration → Bool
  | .refused _ => false
  | .done _ _ => true

def nextSlot (s : State) : Interface :=
  match s.turbotapInactiveInterfaces.getLast? with
  | none => Interface.zero
  | some i => s.turbotapInterfaces.getD i Interface.zero

variable {s t : State} {slots : List Interface} {ti tj : Interface} {i j : Nat} {l : List Int}

theorem activeAt_modify {f : Interface → Interface} (hi : slots[i]? = some ti) :
    ActiveAt (slots.modify i f) j tj ↔
      (j = i ∧ tj = f ti ∧ (f ti).active = true) ∨ (j ≠ i ∧ ActiveAt slots j tj) := by
  rw [ActiveAt, List.getElem?_modify]
  by_cases hj : i = j
  · subst hj
    rw [hi]
    simp only [if_pos, Option.map_eq_map, Option.map_some, Option.some.injEq, true_and, ne_eq,
      not_true, false_and, or_false]
    constructor
    · rintro ⟨rfl, h⟩
      exact ⟨rfl, h⟩
    · rintro ⟨rfl, h⟩
      exact ⟨rfl, h⟩
  · simp [hj, Ne.symm hj, ActiveAt]

theorem closeAll_eq (a b c d : Int) : closeAll s a b c d =
    { s with openFds := s.openFds.filter (fun g => decide (g ∉ [a, b, c, d])) } := by
  simp only [closeAll, State.close, List.filter_filter]
  congr 1
  refine List.filter_congr fun g _ => ?_
  simp only [List.mem_cons, List.not_mem_nil, or_false, not_or, Bool.decide_and, ne_eq]
  cases decide ¬g = a <;> cases decide ¬g = b <;> cases decide ¬g = c <;> cases decide ¬g = d <;> rfl

theorem filter_opened (xs ys : List Int) (hxs : ∀ fd ∈ xs, fd ∈ ys) (hys : ∀ fd ∈ ys, fd ∉ l) :
    (xs ++ l).filter (fun g => decide (g ∉ ys)) = l := by
  rw [List.filter_append, List.filter_eq_nil_iff.mpr, List.filter_eq_self.mpr, List.nil_append]
  · exact fun g hg => decide_eq_true fun h => hys g h hg
  · exact fun g hg h => of_decide_eq_true h (hxs g hg)

end Vppsb.Turbotap
