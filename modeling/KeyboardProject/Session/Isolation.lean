/-
Sessions under one key. Salts and session ids keep them apart: whatever arrives, frames of the other sessions
included, the receiver of a session accepts a subsequence of that session's own packets.
-/
import KeyboardProject.Session.Delivery

namespace KeyboardProject.Session

open Rust Rust.Outcome Proto Wire

/-- A session and the packets it has sent. -/
structure Sent where
  keys : SessionKeys
  packets : List Packet

/-- The packets carry the session's id and the successive counters of `next_counter`, and each has a payload
of its kind. -/
structure Sent.Valid (s : Sent) : Prop where
  sessionId : ∀ p ∈ s.packets, p.header.sessionId = s.keys.sessionId
  counters : s.packets.map (fun p => p.header.counter) = issued s.keys s.packets.length
  kinds : ∀ p ∈ s.packets, matchesValidKindPayload p.header.kind p.payload = true

/-- The calls of `seal` of all sessions. -/
def allCalls (cfg : ProtocolConfig) (sessions : List Sent) : List SealCall :=
  sessions.flatMap fun s => sentCalls cfg s.keys s.packets

/-- Two sessions have two salts or two ids. -/
def Distinct (sessions : List Sent) : Prop :=
  ∀ s ∈ sessions, ∀ t ∈ sessions, s.keys.salt = t.keys.salt → s.keys.sessionId = t.keys.sessionId → s = t

section Isolation

variable [Target] {cfg : ProtocolConfig} {aead : Aead} {sessions : List Sent} {s : Sent}

/-- What the receiver of a session accepts was sent in that session. -/
theorem exists_sent_of_receive (hideal : Ideal aead (allCalls cfg sessions)) (hdistinct : Distinct sessions)
    (hvalid : ∀ t ∈ sessions, t.Valid) (hs : s ∈ sessions) {last : Option UInt32} {bytes : List UInt8} {p : Packet}
    (h : receive cfg aead s.keys.sessionId s.keys.salt last bytes = some p) :
    (p.header, p.payload) ∈ s.packets.map fun q => (q.header, q.payload) := by
  obtain ⟨hopen, hcheck⟩ := receive_eq_some.1 h
  obtain ⟨f, -, -, -, -, x, ho, hd⟩ := (openFramed_eq_ok (frameFits_of_openFramed hopen)).1 hopen
  obtain ⟨call, hmem, hnonce, haad, hplain, -⟩ := hideal.opens ho
  obtain ⟨t, ht, hcall⟩ := List.mem_flatMap.1 hmem
  obtain ⟨q, hq, rfl⟩ := List.mem_map.1 hcall
  obtain ⟨hheader, -⟩ := associatedData_inj (Subtype.ext haad)
  -- the nonce tells the salt, and the header, which is authenticated, the session id
  have hsalt : t.keys.salt = s.keys.salt := (deriveNonce_inj (Subtype.ext hnonce)).1
  have hid : t.keys.sessionId = s.keys.sessionId := by
    rw [← (hvalid t ht).sessionId q hq, hheader]
    exact (validatePacket_eq_ok.1 hcheck).1.session _ rfl
  obtain rfl := hdistinct t ht s hs hsalt hid
  obtain ⟨hm, hx⟩ := decodePayload_eq_ok.1 hd
  rw [← hheader] at hm
  have hpayload : q.payload = p.payload := encodePayload_inj ((hvalid t ht).kinds q hq) hm (hplain.trans hx.symm)
  exact List.mem_map.2 ⟨q, hq, by rw [hheader, hpayload]⟩

/-- Sessions do not mix: under one key that seals for any number of sessions, with pairwise different pairs of
salt and id, the receiver of each accepts a subsequence of what was sent in it, in the order of sending and
none twice, whatever arrives. -/
theorem session_isolation (hideal : Ideal aead (allCalls cfg sessions)) (hdistinct : Distinct sessions)
    (hvalid : ∀ t ∈ sessions, t.Valid) (hs : s ∈ sessions) (last : Option UInt32) (arriving : List (List UInt8)) :
    ((receiver cfg aead s.keys.sessionId s.keys.salt).run last arriving).2.Sublist
        (s.packets.map fun p => (p.header, p.payload)) ∧
      ((receiver cfg aead s.keys.sessionId s.keys.salt).run last arriving).2.Pairwise
        (fun a b => a.1.counter.toNat < b.1.counter.toNat) := by
  have hsent : (s.packets.map fun p => (p.header, p.payload)).Pairwise
      (fun a b => a.1.counter.toNat < b.1.counter.toNat) := by
    have hinc := issued_pairwise s.keys s.packets.length
    rw [← (hvalid s hs).counters, List.pairwise_map] at hinc
    exact List.pairwise_map.2 (hinc.imp fun hlt => UInt32.lt_iff_toNat_lt.1 hlt)
  have hmark : (receiver cfg aead s.keys.sessionId s.keys.salt).HighWater (fun last => last.map UInt32.toNat)
      (fun a => a.1.counter.toNat) (s.packets.map fun q => (q.header, q.payload)) := by
    intro last bytes
    simp only [receiver]
    cases h : receive cfg aead s.keys.sessionId s.keys.salt last bytes with
    | none => exact Or.inl ⟨rfl, rfl⟩
    | some p =>
      refine Or.inr ⟨_, exists_sent_of_receive hideal hdistinct hvalid hs h, rfl, ?_, rfl⟩
      intro m hm
      obtain ⟨l, hl, rfl⟩ := Option.map_eq_some_iff.1 hm
      exact receive_above h l hl
  exact hmark.run_sublist hsent last arriving

end Isolation

/-- Two sessions with one id, each with one key report of counter 1. -/
def twoSessions : List Sent :=
  [{ keys := sampleSession, packets := [firstReport] },
    { keys := .new sampleSession.sessionId ⟨List.replicate sessionSaltBytes 0x5A, rfl⟩, packets := [firstReport] }]

/-- A frame of the first session and garbage arrive at the receiver of the second. -/
theorem session_isolation_two :
    ((@receiver target64 demoConfig (rememberingAead (allCalls demoConfig twoSessions)) sampleSession.sessionId
        ⟨List.replicate sessionSaltBytes 0x5A, rfl⟩).run none [firstFrame, []]).2.Sublist
      [(firstReport.header, firstReport.payload)] := by
  have hdistinct : Distinct twoSessions := by
    intro s hs t ht hsalt hid
    simp only [twoSessions, List.mem_cons, List.not_mem_nil, or_false] at hs ht
    rcases hs with rfl | rfl <;> rcases ht with rfl | rfl
    · rfl
    · exact absurd hsalt (by decide)
    · exact absurd hsalt (by decide)
    · rfl
  have hvalid : ∀ t ∈ twoSessions, t.Valid := by
    simp only [twoSessions, List.forall_mem_cons, List.not_mem_nil, false_imp_iff, implies_true, and_true]
    refine ⟨⟨?_, by decide, ?_⟩, ⟨?_, by decide, ?_⟩⟩ <;>
    · intro p hp
      rw [List.mem_singleton.1 hp]
      rfl
  exact (@session_isolation target64 demoConfig (rememberingAead (allCalls demoConfig twoSessions)) twoSessions
    { keys := .new sampleSession.sessionId ⟨List.replicate sessionSaltBytes 0x5A, rfl⟩, packets := [firstReport] }
    (ideal_rememberingAead _) hdistinct hvalid (by simp [twoSessions]) none [firstFrame, []]).1

end KeyboardProject.Session
