import Vppsb.TurbotapBuffers

namespace Vppsb.TurbotapDelivery

open Vppsb.StepRun Vppsb.NextFrames Vppsb.VlibBuffer Vppsb.TurbotapRx Vppsb.TurbotapBuffers
open Vppsb.Turbotap (Interface noIndex)

/-- Every message is enqueued, once and in order, to the drop node if the
interface is down. -/
structure Delivered (size : Nat) (c : Call) (ti : Interface) (tr : RxMain) (rxReady : Nat)
    (r : RxResult) (chains : List (List Nat)) : Prop where
  entries : enqueued r.sent = chains.map (fun bs => (target c (startIndex ti), bs.headD 0))
  served : List.Forall₂ (fun p bs => Served r.main.buffers size p.1 p.2 bs)
    ((offered c ti tr rxReady).zip c.messages) chains

def Delivers (lengths size : Nat) (c : Call) (ti : Interface) (tr : RxMain) (rxReady : Nat) : Prop :=
  ∃ r chains, turbotapRxIface lengths size c ti tr rxReady = some r ∧
    Delivered size c ti tr rxReady r chains

section Iface

variable {lengths size rxReady : Nat} {c : Call} {ti : Interface} {tr : RxMain}

theorem rxIface_delivers_iff (hsize : 0 < size) (hfits : size < lengths)
    (hready : 1 ≤ rxReady ∧ rxReady ≤ maxRecv) (hs : Sound tr) (hp : Possible size c ti tr rxReady) :
    Delivers lengths size c ti tr rxReady ↔ c.messages.length ≤ freeSlots c ti := by
  obtain ⟨r, chains, hr, hrec, _⟩ := rxIface_spec hsize hfits hready hs hp
  have hzip : ((offered c ti tr rxReady).zip c.messages).length = c.messages.length := by
    rw [List.length_zip, Nat.min_eq_right hp.count]
  constructor
  · rintro ⟨r', chains', hr', hd⟩
    obtain rfl := Option.some.inj (hr.symm.trans hr')
    have hlen := hd.served.length_eq
    have hsent := congrArg List.length (hrec.entries.symm.trans hd.entries)
    rw [List.length_map, List.length_map, hrec.serves, ← hlen, hzip] at hsent
    omega
  · intro hle
    have hcount := hrec.serves.trans (Nat.min_eq_left hle)
    have hserved := hrec.served
    rw [List.take_of_length_le (Nat.le_of_eq (hzip.trans hcount.symm))] at hserved
    exact ⟨r, chains, hr, hrec.entries, hserved⟩

end Iface

def StepDelivers (lengths size : Nat) (s : RxState) (e : Event) : Prop :=
  Delivers lengths size e.call e.ti (found s e) (s.rxReady e.iface)

def EnoughSlots (_ : RxState) (e : Event) : Prop := e.call.messages.length ≤ freeSlots e.call e.ti

/-- Along any run of calls, every message is delivered, when and only when no
call receives more messages than the frame for their node has free slots. -/
theorem run_delivers_iff (lengths size : Nat) (hsize : 0 < size) (hfits : size < lengths)
    (rxReady : Nat → Nat) (hready : ∀ k, 1 ≤ rxReady k ∧ rxReady k ≤ maxRecv) (events : List Event)
    (hp : Meets (step lengths size) (StepPossible size) (start rxReady) events) :
    Meets (step lengths size) (StepDelivers lengths size) (start rxReady) events ↔
      Meets (step lengths size) EnoughSlots (start rxReady) events := by
  have hstart : Waiting (start rxReady) :=
    ⟨⟨fun _ h => absurd h List.not_mem_nil, rfl⟩, hready⟩
  refine meets_congr (fun s e t h hpe _ ht => ?_) (fun s e h hpe => ?_) hstart hp
  · exact step_waiting hsize hfits h hpe ht
  · exact rxIface_delivers_iff hsize hfits (h.ready e.iface) (h.found e) hpe

theorem run_delivers_iff_sample :
    Meets (step 0x10000 2048) (StepDelivers 0x10000 2048) (start fun _ => 2) [oneMessage] ↔
      Meets (step 0x10000 2048) EnoughSlots (start fun _ => 2) [oneMessage] := by
  exact run_delivers_iff 0x10000 2048 (by decide) (by decide) _ (fun _ => by decide) _
    ⟨oneMessage_possible, fun _ _ => trivial⟩

def threeMessages : Event where
  iface := 0
  ti := { Turbotap.Interface.zero with mtuBuffers := 1, perInterfaceNextIndex := noIndex }
  call := ⟨[1, 2, 3, 4, 5, 6], false, fun _ => 1, [[7], [8], [9]], false⟩
  elsewhere := fun _ => ⟨fun _ => 0, 0, 0, false, false, 0, 0, 0, 0⟩

/-- The third message is neither enqueued nor counted. -/
theorem third_message_lost :
    (∃ r, turbotapRxIface 0x10000 2048 threeMessages.call threeMessages.ti
        (found (start fun _ => 4) threeMessages) 4 = some r ∧
        enqueued r.sent = [(turbotapRxNextEthernetInput, 6), (turbotapRxNextEthernetInput, 5)] ∧
        r.main.rxBuffers = [1, 2, 3, 4] ∧ r.counters.rxPackets = 2 ∧ r.counters.read = 0 ∧
        r.counters.bufferAllocation = 0) ∧
      ¬ Meets (step 0x10000 2048) (StepDelivers 0x10000 2048) (start fun _ => 4) [threeMessages] := by
  have heval : (turbotapRxIface 0x10000 2048 threeMessages.call threeMessages.ti
      (found (start fun _ => 4) threeMessages) 4).map (fun r => (enqueued r.sent, r.main.rxBuffers,
        r.counters.rxPackets, r.counters.read, r.counters.bufferAllocation)) =
      some ([(2, 6), (2, 5)], [1, 2, 3, 4], 2, 0, 0) := by decide
  obtain ⟨r, hr, he⟩ := Option.map_eq_some_iff.mp heval
  simp only [Prod.mk.injEq] at he
  obtain ⟨hsent, hrest⟩ := he
  refine ⟨⟨r, hr, hsent, hrest⟩, fun hall => ?_⟩
  obtain ⟨⟨r', chains, hr', hd⟩, _⟩ := hall
  have hrr : r = r' := Option.some.inj (hr.symm.trans hr')
  have hlen := hd.served.length_eq
  have hentries := congrArg List.length hd.entries
  rw [List.length_map, ← hlen, ← hrr, hsent] at hentries
  exact absurd hentries (by decide)

end Vppsb.TurbotapDelivery
