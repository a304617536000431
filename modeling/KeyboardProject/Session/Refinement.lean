/-
The receiver as a counter window. Opening has no state: what the receiver does with any byte strings is what
the window does with the packets they open to. So over a channel that reorders and duplicates it delivers the
packets that nothing has overtaken, and no others.
-/
import KeyboardProject.Lib.Acceptor
import KeyboardProject.Session.Delivery

namespace KeyboardProject.Session

open Rust Rust.Outcome Proto Wire Acceptor

/-- The packet that a byte string opens to, if it is well formed: what the receiver does but for its counters. -/
def unframe [Target] (cfg : ProtocolConfig) (aead : Aead) (k : SessionKeys) (bytes : List UInt8) : Option Packet :=
  receive cfg aead k.sessionId k.salt none bytes

/-- The window over packets. -/
def window : Machine (Option Nat) Packet Packet := .acceptor 50 fun p => p.header.counter.toNat

section Window

variable [Target] {cfg : ProtocolConfig} {aead : Aead} {k : SessionKeys} {last : Option UInt32}

/-- The counter is all that the receiver's state decides. -/
theorem receive_iff_unframe {bytes : List UInt8} {p : Packet} :
    receive cfg aead k.sessionId k.salt last bytes = some p ↔
      unframe cfg aead k bytes = some p ∧ ∀ l ∈ last.map UInt32.toNat, Window.Ahead 50 l p.header.counter.toNat := by
  have hwindow : (∀ l ∈ last.map UInt32.toNat, Window.Ahead 50 l p.header.counter.toNat) ↔
      ∀ l, last = some l → InWindow l p.header.counter := by
    cases last <;> simp [InWindow]
  rw [unframe, receive_eq_some, receive_eq_some, validatePacket_eq_ok, validatePacket_eq_ok, hwindow]
  simp only [reduceCtorEq, false_imp_iff, implies_true, and_true, and_assoc]

theorem receive_eq_filter (last : Option UInt32) (bytes : List UInt8) :
    receive cfg aead k.sessionId k.salt last bytes =
      (unframe cfg aead k bytes).filter fun p => ∀ l ∈ last.map UInt32.toNat, Window.Ahead 50 l p.header.counter.toNat := by
  ext p
  rw [receive_iff_unframe, Option.filter_eq_some_iff, decide_eq_true_iff]

/-- What does not open leaves the receiver as it is. -/
theorem receiver_skip (last : Option UInt32) (bytes : List UInt8) (h : unframe cfg aead k bytes = none) :
    ((receiver cfg aead k.sessionId k.salt).step last bytes).1.map UInt32.toNat = last.map UInt32.toNat ∧
      ((receiver cfg aead k.sessionId k.salt).step last bytes).2 = [] := by
  have hreceive := @receive_eq_filter _ cfg aead k last bytes
  rw [h, Option.filter_none] at hreceive
  simp only [receiver, hreceive, and_self]

/-- On what opens the receiver takes the window's step. -/
theorem receiver_step (last : Option UInt32) (bytes : List UInt8) (p : Packet) (h : unframe cfg aead k bytes = some p) :
    ((receiver cfg aead k.sessionId k.salt).step last bytes).1.map UInt32.toNat = (window.step (last.map UInt32.toNat) p).1 ∧
      ((receiver cfg aead k.sessionId k.salt).step last bytes).2 =
        (window.step (last.map UInt32.toNat) p).2.map fun p => (p.header, p.payload) := by
  have hreceive := @receive_eq_filter _ cfg aead k last bytes
  rw [h, Option.filter_some] at hreceive
  by_cases hopen : ∀ l ∈ last.map UInt32.toNat, Window.Ahead 50 l p.header.counter.toNat
  · rw [if_pos (decide_eq_true hopen)] at hreceive
    simp only [receiver, hreceive, window, Machine.acceptor, if_pos hopen]
    exact ⟨rfl, rfl⟩
  · rw [if_neg (by simpa using hopen)] at hreceive
    simp only [receiver, hreceive, window, Machine.acceptor, if_neg hopen, List.map_nil, and_self]

/-- The receiver simulates the window on the packets that open, for every list of byte strings. -/
theorem receiver_refines (last : Option UInt32) (arriving : List (List UInt8)) :
    ((receiver cfg aead k.sessionId k.salt).run last arriving).1.map UInt32.toNat =
        (window.run (last.map UInt32.toNat) (arriving.filterMap (unframe cfg aead k))).1 ∧
      ((receiver cfg aead k.sessionId k.salt).run last arriving).2 =
        (window.run (last.map UInt32.toNat) (arriving.filterMap (unframe cfg aead k))).2.map
          fun p => (p.header, p.payload) :=
  window.run_filterMap receiver_skip receiver_step last arriving

/-- The frame of a well-formed packet opens to it, under the AEAD's tag. -/
theorem unframe_frame (haead : aead.Lawful) (hc : FrameFits cfg) {p : Packet} {b : List UInt8}
    (hm : matchesValidKindPayload p.header.kind p.payload = true) (hwf : WellFormed p cfg (some k.sessionId))
    (h : sealFramed p cfg aead (k.nonceFor p.header.counter).1 = .ok b) :
    ∃ t, unframe cfg aead k b = some { p with mac := t } := by
  obtain ⟨f, -, -, -, hopen⟩ := openFramed_of_opens hc hm (haead _ _ _ _) h
  refine ⟨f.tail, receive_eq_some.2 ⟨hopen, validatePacket_eq_ok.2 ⟨⟨?_, f.tail_length, hwf.session, hwf.payload_le⟩, nofun⟩⟩⟩
  rintro (hnil : f.tail = [])
  have hzero : cfg.security.macLen = 0 := f.tail_length.symm.trans (congrArg List.length hnil)
  exact hwf.mac_ne (List.eq_nil_of_length_eq_zero (hwf.mac_length.trans hzero))

/-- A packet and its frame, as the sender makes them. -/
structure Genuine (cfg : ProtocolConfig) (aead : Aead) (k : SessionKeys) (x : Packet × List UInt8) : Prop where
  kind : matchesValidKindPayload x.1.header.kind x.1.payload = true
  wellFormed : WellFormed x.1 cfg (some k.sessionId)
  frame : sealFramed x.1 cfg aead (k.nonceFor x.1.header.counter).1 = .ok x.2

theorem content_unframe (haead : aead.Lawful) (hc : FrameFits cfg) {arriving : List (Packet × List UInt8)}
    (hgenuine : ∀ x ∈ arriving, Genuine cfg aead k x) :
    ((arriving.map Prod.snd).filterMap (unframe cfg aead k)).map (fun p => (p.header, p.payload)) =
      (arriving.map Prod.fst).map fun p => (p.header, p.payload) := by
  induction arriving with
  | nil => rfl
  | cons x arriving ih =>
    obtain ⟨hx, hrest⟩ := List.forall_mem_cons.1 hgenuine
    obtain ⟨t, ht⟩ := unframe_frame haead hc hx.kind hx.wellFormed hx.frame
    rw [List.map_cons, List.map_cons, List.filterMap_cons_some ht, List.map_cons, List.map_cons, ih hrest]

/-- Of genuine frames that arrive steadily the window takes the records. -/
theorem window_takes_records (haead : aead.Lawful) (hc : FrameFits cfg) {arriving : List (Packet × List UInt8)}
    (hgenuine : ∀ x ∈ arriving, Genuine cfg aead k x)
    (hsteady : Steady 50 (fun p : Packet => p.header.counter.toNat) (last.map UInt32.toNat) (arriving.map Prod.fst)) :
    (window.run (last.map UInt32.toNat) ((arriving.map Prod.snd).filterMap (unframe cfg aead k))).2.map
        (fun p => (p.header, p.payload)) =
      (records (fun p : Packet => p.header.counter.toNat) (last.map UInt32.toNat) (arriving.map Prod.fst)).map
        fun p => (p.header, p.payload) := by
  -- header and payload are all that the window sees of a packet, so the tags do not matter
  let key : PacketHeader × Payload → Nat := fun a => a.1.counter.toNat
  have hcontent := content_unframe haead hc hgenuine
  have hopened : Steady 50 (fun p : Packet => p.header.counter.toNat) (last.map UInt32.toNat)
      ((arriving.map Prod.snd).filterMap (unframe cfg aead k)) := by
    refine (@steady_map _ 50 key _ (fun p : Packet => (p.header, p.payload)) _ _).1 ?_
    rw [hcontent]
    exact (steady_map _ _ _).2 hsteady
  have hrecords := @records_map _ key _ fun p : Packet => (p.header, p.payload)
  rw [window, run_of_steady hopened]
  exact (hrecords _ _).symm.trans ((congrArg _ hcontent).trans (hrecords _ _))

/-- Over a channel that reorders and duplicates the frames of a session, as long as no frame is more than 50
ahead of all frames before it, the receiver delivers exactly the packets that are ahead of everything that
arrived before them, with their headers and payloads: what has been overtaken is lost. -/
theorem receiver_takes_records (haead : aead.Lawful) (hc : FrameFits cfg) {arriving : List (Packet × List UInt8)}
    (hgenuine : ∀ x ∈ arriving, Genuine cfg aead k x)
    (hsteady : Steady 50 (fun p : Packet => p.header.counter.toNat) (last.map UInt32.toNat) (arriving.map Prod.fst)) :
    ((receiver cfg aead k.sessionId k.salt).run last (arriving.map Prod.snd)).2 =
      (records (fun p : Packet => p.header.counter.toNat) (last.map UInt32.toNat) (arriving.map Prod.fst)).map
        fun p => (p.header, p.payload) :=
  (window.run_filterMap receiver_skip receiver_step last _).2.trans (window_takes_records haead hc hgenuine hsteady)

end Window

/-- The second key report of the sample session, and its frame under `DummyAead`. -/
def secondReport : Packet := sampleKeyReport demoConfig 2

def secondFrame : List UInt8 :=
  [0x55, 0x66, 0x77, 0x88, 2, 0, 0, 0, 2, 3] ++ [1, 0] ++ [0x04] ++
    [197, 222, 20, 194, 68, 199, 202, 175, 242, 7, 198, 64, 133, 92, 166, 198]

/-- Two key reports of the sample session change places on the way, and the first arrives twice: the second is
delivered and the first is not. -/
theorem receiver_takes_records_overtaken :
    ((@receiver target64 demoConfig dummyAead sampleSession.sessionId sampleSession.salt).run none
        [secondFrame, firstFrame, firstFrame]).2 = [(secondReport.header, secondReport.payload)] := by
  have hgenuine : ∀ x ∈ [(secondReport, secondFrame), (firstReport, firstFrame), (firstReport, firstFrame)],
      Genuine demoConfig dummyAead sampleSession x := by
    have hfirst : Genuine demoConfig dummyAead sampleSession (firstReport, firstFrame) :=
      ⟨rfl, sampleKeyReport_wellFormed (by decide) (by decide) 1, by decide +kernel⟩
    have hsecond : Genuine demoConfig dummyAead sampleSession (secondReport, secondFrame) :=
      ⟨rfl, sampleKeyReport_wellFormed (by decide) (by decide) 2, by decide +kernel⟩
    simp [hfirst, hsecond]
  exact @receiver_takes_records target64 demoConfig dummyAead sampleSession none lawful_dummyAead (by decide)
    [(secondReport, secondFrame), (firstReport, firstFrame), (firstReport, firstFrame)] hgenuine (by decide)

end KeyboardProject.Session
