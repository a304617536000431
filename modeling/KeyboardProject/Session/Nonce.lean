/-
The life of a session salt: which counters `next_counter` issues under every sequence of calls, and
when the nonces made from them are all different.
-/
import KeyboardProject.Lib.Machine
import KeyboardProject.Proto.Samples

namespace KeyboardProject.Session

open Rust Rust.Outcome Proto

/-! ## The nonce -/

theorem deriveNonce_inj {salt salt' : Arr UInt8 sessionSaltBytes} {c c' : UInt32}
    (h : deriveNonce salt c = deriveNonce salt' c') : salt = salt' ∧ c = c' := by
  have hval := congrArg Subtype.val h
  obtain ⟨hl, -⟩ := List.append_inj hval (by simp [salt.2, salt'.2, (u32ToLeBytes _).2])
  obtain ⟨hs, hc⟩ := List.append_inj hl (by rw [salt.2, salt'.2])
  exact ⟨Subtype.ext hs, u32ToLeBytes_inj (Subtype.ext hc)⟩

/-! ## The calls on a session -/

inductive SessionOp where
  | nextCounter
  | resetCounter
  | resumeFrom (nextCounter : UInt32)
  deriving DecidableEq, Repr

/-- A session under its calls; the outputs are the counters that `next_counter` returned `Ok`. -/
def session : Machine SessionKeys SessionOp UInt32 where
  step k op :=
    match op with
    | .nextCounter =>
      match k.nextCounter with
      | (.ok c, k') => (k', [c])
      | (_, k') => (k', [])
    | .resetCounter => (k.resetCounter, [])
    | .resumeFrom n => (k.resumeFrom n, [])

theorem counterRekeyThreshold_toNat : counterRekeyThreshold.toNat = 2 ^ 31 := by decide

theorem counter_succ_toNat {c : UInt32} (h : c.toNat < 2 ^ 31) : (c + 1).toNat = c.toNat + 1 := by
  have hone : (1 : UInt32).toNat = 1 := rfl
  rw [UInt32.toNat_add, hone, Nat.mod_eq_of_lt (by omega)]

theorem u32Add_one {ε : Type} {c : UInt32} (h : c.toNat + 1 < 2 ^ 32) : (u32Add c 1 : Outcome ε UInt32) = .ok (c + 1) :=
  u32Add_ok h

/-- The increment never overflows: the threshold is half the range. -/
theorem nextCounter_eq (k : SessionKeys) :
    k.nextCounter =
      if k.counter.toNat < 2 ^ 31 then (.ok k.counter, { k with counter := k.counter + 1 })
      else (.err .counterExhausted, k) := by
  unfold SessionKeys.nextCounter
  have h : k.counter ≥ counterRekeyThreshold ↔ ¬k.counter.toNat < 2 ^ 31 := by
    rw [ge_iff_le, UInt32.le_iff_toNat_le, counterRekeyThreshold_toNat, not_lt]
  by_cases hlt : k.counter.toNat < 2 ^ 31
  · rw [if_neg (fun hge => h.1 hge hlt), if_pos hlt]
    have hadd : (u32Add k.counter 1 : Outcome SessionError UInt32) = .ok (k.counter + 1) := u32Add_one (by omega)
    simp only [hadd]
  · rw [if_pos (h.2 hlt), if_neg hlt]

theorem step_nextCounter (k : SessionKeys) :
    session.step k .nextCounter =
      if k.counter.toNat < 2 ^ 31 then ({ k with counter := k.counter + 1 }, [k.counter]) else (k, []) := by
  show (match k.nextCounter with | (.ok c, k') => (k', [c]) | (_, k') => (k', [])) = _
  rw [nextCounter_eq]
  split_ifs <;> rfl

/-! ## Successive calls of `next_counter` -/

/-- The `Ok` results of `n` successive calls of `next_counter`. -/
def issued (k : SessionKeys) (n : Nat) : List UInt32 := (session.run k (List.replicate n .nextCounter)).2

/-- Successive calls count up from the session's counter, to the threshold. -/
theorem issued_toNat (k : SessionKeys) (n : Nat) :
    (issued k n).map UInt32.toNat = List.range' k.counter.toNat (min n (2 ^ 31 - k.counter.toNat)) := by
  induction n generalizing k with
  | zero => simp [issued]
  | succ n ih =>
    rw [issued, List.replicate_succ, Machine.run_cons, step_nextCounter]
    by_cases hlt : k.counter.toNat < 2 ^ 31
    · -- below the threshold one counter is issued, and the rest count on from the next
      have hih := ih { k with counter := k.counter + 1 }
      rw [issued, counter_succ_toNat hlt] at hih
      obtain ⟨m, hm⟩ : ∃ m, min (n + 1) (2 ^ 31 - k.counter.toNat) = m + 1 :=
        ⟨min (n + 1) (2 ^ 31 - k.counter.toNat) - 1, by omega⟩
      have hm' : min n (2 ^ 31 - (k.counter.toNat + 1)) = m := by omega
      rw [if_pos hlt, hm, List.range'_succ, List.map_append, hih, hm']
      rfl
    · -- at the threshold the session stays as it is
      have hih := ih k
      rw [issued] at hih
      have hzero : 2 ^ 31 - k.counter.toNat = 0 := by omega
      rw [if_neg hlt, List.nil_append, hih, hzero]
      simp

theorem issued_range (k : SessionKeys) (n : Nat) :
    (issued k n).map UInt32.toNat = List.range' k.counter.toNat (issued k n).length := by
  have hlen := congrArg List.length (issued_toNat k n)
  rw [List.length_map, List.length_range'] at hlen
  rw [hlen, issued_toNat]

/-- No counter is issued twice, and they go up. -/
theorem issued_pairwise (k : SessionKeys) (n : Nat) : (issued k n).Pairwise (· < ·) := by
  have h : ((issued k n).map UInt32.toNat).Pairwise (· < ·) := by
    rw [issued_toNat]; exact List.pairwise_lt_range' _ Nat.one_pos
  rw [List.pairwise_map] at h
  exact h.imp fun hlt => UInt32.lt_iff_toNat_lt.2 hlt

theorem mem_issued {k : SessionKeys} {c : UInt32} (hle : k.counter ≤ c) (hlt : c.toNat < 2 ^ 31) :
    ∃ n, c ∈ issued k n := by
  rw [UInt32.le_iff_toNat_le] at hle
  refine ⟨c.toNat - k.counter.toNat + 1, ?_⟩
  have h : c.toNat ∈ (issued k (c.toNat - k.counter.toNat + 1)).map UInt32.toNat := by
    rw [issued_toNat, List.mem_range'_1]; omega
  obtain ⟨c', hc', heq⟩ := List.mem_map.1 h
  rwa [UInt32.toNat_inj.1 heq] at hc'

/-- The session after `n` successive calls of `next_counter`. -/
def afterCalls (k : SessionKeys) (n : Nat) : SessionKeys := (session.run k (List.replicate n .nextCounter)).1

theorem afterCalls_succ (k : SessionKeys) (n : Nat) : afterCalls k (n + 1) = (afterCalls k n).nextCounter.2 := by
  unfold afterCalls
  rw [List.replicate_succ', Machine.run_append, Machine.run_cons, Machine.run_nil, step_nextCounter, nextCounter_eq]
  split_ifs <;> rfl

/-- The counter moves up by one each call and stops at the threshold. -/
theorem afterCalls_toNat (k : SessionKeys) (n : Nat) :
    (afterCalls k n).counter.toNat = max k.counter.toNat (min (k.counter.toNat + n) (2 ^ 31)) := by
  induction n with
  | zero =>
    show k.counter.toNat = _
    omega
  | succ n ih =>
    rw [afterCalls_succ, nextCounter_eq]
    by_cases hlt : (afterCalls k n).counter.toNat < 2 ^ 31
    · rw [if_pos hlt]
      show ((afterCalls k n).counter + 1).toNat = _
      rw [counter_succ_toNat hlt, ih]
      omega
    · rw [if_neg hlt]
      show (afterCalls k n).counter.toNat = _
      omega

theorem resumeFrom_toNat (k : SessionKeys) (n : UInt32) : (k.resumeFrom n).counter.toNat = max n.toNat 1 := by
  show (if n ≤ 1 then 1 else n : UInt32).toNat = max n.toNat 1
  have hone : (1 : UInt32).toNat = 1 := rfl
  split_ifs with h
  · rw [UInt32.le_iff_toNat_le] at h; omega
  · rw [UInt32.le_iff_toNat_le] at h; omega

/-- The result of each successive call after `resume_from`. -/
theorem nextCounter_afterCalls (k : SessionKeys) (n : UInt32) (i : Nat) :
    (afterCalls (k.resumeFrom n) i).nextCounter =
      if max n.toNat 1 + i < 2 ^ 31 then
        (.ok (UInt32.ofNat (max n.toNat 1 + i)), (afterCalls (k.resumeFrom n) i).nextCounter.2)
      else (.err .counterExhausted, afterCalls (k.resumeFrom n) i) := by
  have hcounter := afterCalls_toNat (k.resumeFrom n) i
  rw [resumeFrom_toNat] at hcounter
  rw [nextCounter_eq]
  by_cases hlt : max n.toNat 1 + i < 2 ^ 31
  · have hval : (afterCalls (k.resumeFrom n) i).counter = UInt32.ofNat (max n.toNat 1 + i) := by
      apply UInt32.toNat_inj.1
      rw [hcounter, UInt32.toNat_ofNat']
      omega
    rw [if_pos hlt, if_pos (by omega), hval]
  · rw [if_neg hlt, if_neg (by omega)]

/-- Issuing is gap-free, bounded and absorbing at exhaustion: after `resume_from` of any number, the
call number `i` returns the number and `i`, as long as that is below the threshold, and from then on
every call fails and leaves the session as it is. The increment never overflows, and no counter issued
shares its nonce with the handshake. A fresh session is one resumed from 1. -/
theorem issuing_gap_free (k : SessionKeys) (n : UInt32) (i : Nat) :
    (afterCalls (k.resumeFrom n) i).nextCounter.1 =
      (if max n.toNat 1 + i < counterRekeyThreshold.toNat then .ok (UInt32.ofNat (max n.toNat 1 + i))
        else .err .counterExhausted) ∧
    ((afterCalls (k.resumeFrom n) i).nextCounter.1.IsErr →
      (afterCalls (k.resumeFrom n) i).nextCounter.2 = afterCalls (k.resumeFrom n) i ∧
        ∀ j, i ≤ j → (afterCalls (k.resumeFrom n) j).nextCounter.1 = .err .counterExhausted) ∧
    (afterCalls (k.resumeFrom n) i).nextCounter.1 ≠ .panic ∧
    (∀ c, (afterCalls (k.resumeFrom n) i).nextCounter.1 = .ok c → c ≠ 0 ∧ k.nonceFor c ≠ k.handshakeNonce) ∧
    SessionKeys.new k.sessionId k.salt = k.resumeFrom 1 := by
  have hi := nextCounter_afterCalls k n i
  rw [counterRekeyThreshold_toNat]
  by_cases hlt : max n.toNat 1 + i < 2 ^ 31
  · rw [if_pos hlt] at hi ⊢
    rw [hi]
    refine ⟨rfl, ?_, by simp, fun c hc => ?_, rfl⟩
    · rintro ⟨e, he⟩; contradiction
    · have hne : c ≠ 0 := by
        rintro rfl
        have hzero := congrArg UInt32.toNat (ok.inj hc)
        have h0 : (0 : UInt32).toNat = 0 := rfl
        rw [UInt32.toNat_ofNat'] at hzero
        omega
      exact ⟨hne, fun h => hne (deriveNonce_inj h).2⟩
  · rw [if_neg hlt] at hi ⊢
    rw [hi]
    refine ⟨rfl, fun _ => ⟨rfl, fun j hij => ?_⟩, by simp, fun c hc => by contradiction, rfl⟩
    rw [nextCounter_afterCalls, if_neg (by omega)]

/-! ## Every sequence of calls -/

theorem run_salt (k : SessionKeys) (ops : List SessionOp) : (session.run k ops).1.salt = k.salt := by
  refine Machine.invariant (M := session) (P := fun _ t => t.salt = k.salt) rfl ?_ ops
  intro os t op h
  cases op with
  | nextCounter => rw [step_nextCounter]; split_ifs <;> exact h
  | resetCounter => exact h
  | resumeFrom n => exact h

theorem one_le_resumeFrom (k : SessionKeys) (n : UInt32) : 1 ≤ (k.resumeFrom n).counter := by
  show 1 ≤ (if n ≤ 1 then 1 else n)
  split_ifs with h
  · exact UInt32.le_refl 1
  · exact UInt32.le_of_lt (UInt32.not_le.1 h)

/-- The counter never falls below 1, so no issued one does. -/
theorem run_one_le (id : UInt32) (salt : Arr UInt8 sessionSaltBytes) (ops : List SessionOp) :
    1 ≤ (session.run (.new id salt) ops).1.counter.toNat ∧ ∀ c ∈ (session.run (.new id salt) ops).2, 1 ≤ c.toNat := by
  refine Machine.invariant (M := session) (s := .new id salt)
    (P := fun os t => 1 ≤ t.counter.toNat ∧ ∀ c ∈ os, 1 ≤ c.toNat) ⟨le_rfl, by simp⟩ ?_ ops
  rintro os t op ⟨ht, hos⟩
  cases op with
  | nextCounter =>
    rw [step_nextCounter]
    by_cases hlt : t.counter.toNat < 2 ^ 31
    · rw [if_pos hlt]
      refine ⟨by show 1 ≤ (t.counter + 1).toNat; rw [counter_succ_toNat hlt]; omega, ?_⟩
      simpa [or_imp, forall_and] using ⟨hos, ht⟩
    · rw [if_neg hlt]; simpa using ⟨ht, hos⟩
  | resetCounter => exact ⟨le_rfl, by simpa [session] using hos⟩
  | resumeFrom n =>
    exact ⟨UInt32.le_iff_toNat_le.1 (one_le_resumeFrom t n), by simpa [session] using hos⟩

/-- No issued counter is the handshake's. -/
theorem run_pos (id : UInt32) (salt : Arr UInt8 sessionSaltBytes) (ops : List SessionOp) :
    ∀ c ∈ (session.run (.new id salt) ops).2, c ≠ 0 := by
  rintro c hc rfl
  exact absurd ((run_one_le id salt ops).2 0 hc) (by decide)

/-- The calls that set the counter leave it above every counter issued so far. -/
def MovesForward (issued : List UInt32) (k : SessionKeys) : SessionOp → Prop
  | .nextCounter => True
  | .resetCounter => ∀ c ∈ issued, c < k.resetCounter.counter
  | .resumeFrom n => ∀ c ∈ issued, c < (k.resumeFrom n).counter

instance (issued : List UInt32) (k : SessionKeys) : ∀ op, Decidable (MovesForward issued k op)
  | .nextCounter => isTrue trivial
  | .resetCounter => List.decidableBAll (· < k.resetCounter.counter) issued
  | .resumeFrom n => List.decidableBAll (· < (k.resumeFrom n).counter) issued

/-- Along a run that only moves forward the issued counters go up, below the session's counter. -/
theorem run_pairwise {k : SessionKeys} {ops : List SessionOp} (h : session.Along MovesForward [] k ops) :
    (session.run k ops).2.Pairwise (· < ·) ∧ ∀ c ∈ (session.run k ops).2, c < (session.run k ops).1.counter := by
  refine h.invariant (P := fun os t => os.Pairwise (· < ·) ∧ ∀ c ∈ os, c < t.counter) (by simp) ?_
  rintro os t op ⟨hos, hlt⟩ hmove
  cases op with
  | nextCounter =>
    rw [step_nextCounter]
    by_cases hc : t.counter.toNat < 2 ^ 31
    · rw [if_pos hc]
      have hsucc : t.counter < t.counter + 1 := by
        rw [UInt32.lt_iff_toNat_lt, counter_succ_toNat hc]; omega
      refine ⟨List.pairwise_append.2 ⟨hos, List.pairwise_singleton _ _, by simpa using hlt⟩, fun c hmem => ?_⟩
      rcases List.mem_append.1 hmem with hmem | hmem
      · exact UInt32.lt_trans (hlt c hmem) hsucc
      · rw [List.mem_singleton.1 hmem]; exact hsucc
    · rw [if_neg hc]; simpa using ⟨hos, hlt⟩
  | resetCounter => simpa [session] using ⟨hos, hmove⟩
  | resumeFrom n => simpa [session] using ⟨hos, hmove⟩

theorem run_lt (k : SessionKeys) (ops : List SessionOp) : ∀ c ∈ (session.run k ops).2, c.toNat < 2 ^ 31 := by
  refine Machine.invariant (M := session) (P := fun os _ => ∀ c ∈ os, c.toNat < 2 ^ 31) (by simp) ?_ ops
  intro os t op hos
  cases op with
  | nextCounter =>
    rw [step_nextCounter]
    split_ifs with hlt
    · simpa [or_imp, forall_and] using ⟨hos, hlt⟩
    · simpa using hos
  | resetCounter => simpa [session] using hos
  | resumeFrom n => simpa [session] using hos

theorem nonceFor_inj (k : SessionKeys) : Function.Injective k.nonceFor := fun _ _ h => (deriveNonce_inj h).2

/-- A call that leaves the counter at or below an issued one brings that counter back: further calls
of `next_counter` issue it again. -/
theorem exists_reissued {k : SessionKeys} {ops : List SessionOp} {c : UInt32} (hc : c ∈ (session.run k ops).2)
    (hle : (session.run k ops).1.counter ≤ c) :
    ∃ n, ¬(session.run k (ops ++ List.replicate n .nextCounter)).2.Nodup := by
  obtain ⟨n, hn⟩ := mem_issued hle (run_lt k ops c hc)
  refine ⟨n, fun hnodup => ?_⟩
  rw [Machine.run_append] at hnodup
  exact List.disjoint_of_nodup_append hnodup hc hn

/-- The nonces of a session salt: none is the handshake's; they are all different along every run
that only moves the counter forward; and a run that has moved it back to an issued counter goes on to
use a nonce twice. -/
theorem session_nonces (id : UInt32) (salt : Arr UInt8 sessionSaltBytes) (ops : List SessionOp) :
    (session.run (.new id salt) ops).1.salt = salt ∧
    (∀ c ∈ (session.run (.new id salt) ops).2,
      (SessionKeys.new id salt).nonceFor c ≠ (SessionKeys.new id salt).handshakeNonce) ∧
    (session.Along MovesForward [] (.new id salt) ops →
      ((session.run (.new id salt) ops).2.map (SessionKeys.new id salt).nonceFor).Nodup) ∧
    (∀ c ∈ (session.run (.new id salt) ops).2, (session.run (.new id salt) ops).1.counter ≤ c →
      ∃ n, ¬((session.run (.new id salt) (ops ++ List.replicate n .nextCounter)).2.map
        (SessionKeys.new id salt).nonceFor).Nodup) := by
  refine ⟨run_salt _ ops, ?_, ?_, ?_⟩
  · intro c hc h
    exact run_pos id salt ops c hc (deriveNonce_inj h).2
  · intro h
    have hnodup : (session.run (.new id salt) ops).2.Nodup :=
      (run_pairwise h).1.imp fun hlt => UInt32.ne_of_lt hlt
    exact hnodup.map (nonceFor_inj _)
  · intro c hc hle
    obtain ⟨n, hn⟩ := exists_reissued hc hle
    exact ⟨n, fun h => hn (List.Nodup.of_map _ h)⟩

/-- A warm wake resumes above what was issued. -/
theorem session_nonces_resume :
    ((session.run (.new 0x12345678 sampleSession.salt) [.nextCounter, .nextCounter, .resumeFrom 10, .nextCounter]).2.map
      (SessionKeys.new 0x12345678 sampleSession.salt).nonceFor).Nodup :=
  (session_nonces 0x12345678 sampleSession.salt [.nextCounter, .nextCounter, .resumeFrom 10, .nextCounter]).2.2.1
    (by decide)

/-- `reset_counter` under the same salt issues counter 1, and its nonce, a second time. -/
theorem reset_reuses_nonce :
    ¬((session.run (.new 0x12345678 sampleSession.salt) [.nextCounter, .resetCounter, .nextCounter]).2.map
      (SessionKeys.new 0x12345678 sampleSession.salt).nonceFor).Nodup := by
  decide

end KeyboardProject.Session
