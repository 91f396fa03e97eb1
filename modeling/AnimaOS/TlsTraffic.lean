import Mathlib.Data.List.Nodup
import AnimaOS.ByteReader

/-!
# TLS traffic keys

`TrafficKeys` of the micro-VM's TLS code: a cipher, its base IV and a counter that
only a successful `seal` or `open` moves. A flow pairs the sender's keys with the
receiver's and holds what was sealed and not yet delivered; other records can be
put before the receiver at any point.
-/

namespace TlsTraffic

open ByteReader

abbrev Nonce := Vector UInt8 12

/-- The outer record header, the data authenticated beside the record. -/
abbrev Header := Vector UInt8 5

abbrev Tag := Vector UInt8 16

/-- An initialised AES-128-GCM instance. Encryption fails on oversized input. -/
structure Aes128Gcm where
  encrypt : Nonce → Header → List UInt8 → Option (List UInt8 × Tag)
  decrypt : Nonce → Header → List UInt8 → Tag → Option (List UInt8)

/-- Opening succeeds exactly on what was sealed under the same nonce and header. -/
structure Aes128Gcm.Ideal (cipher : Aes128Gcm) : Prop where
  opens : ∀ nonce header inner ct tag, cipher.decrypt nonce header ct tag = some inner ↔
    cipher.encrypt nonce header inner = some (ct, tag)

structure TrafficKeys where
  iv : Vector UInt8 12
  seq : UInt64
  deriving DecidableEq

/-- A call that does not return `Ok`. -/
inductive Stop where
  | error (message : String)
  | panicked (message : String)
  deriving DecidableEq

def u64Max : UInt64 := 18446744073709551615

def exhausted : String :=
  "TLS key exhausted: sequence number at u64::MAX — key update required"

/-- The last eight bytes of the IV xor-ed with the counter. -/
def TrafficKeys.nonce (keys : TrafficKeys) : Nonce :=
  ⟨(keys.iv.toList.take 4 ++
    (keys.iv.toList.drop 4).zipWith (· ^^^ ·) (toBeBytes 8 keys.seq.toNat)).toArray, by simp⟩

/-- The sealed record is the ciphertext with its tag behind it. -/
def TrafficKeys.seal (cipher : Aes128Gcm) (keys : TrafficKeys) (header : Header)
    (inner : List UInt8) : TrafficKeys × Except Stop (List UInt8) :=
  if keys.seq = u64Max then (keys, .error (.error exhausted))
  else
    match cipher.encrypt keys.nonce header inner with
    | none => (keys, .error (.panicked "AES-GCM encrypt failed"))
    | some (ct, tag) => ({ keys with seq := keys.seq + 1 }, .ok (ct ++ tag.toList))

/-- `ct[tag_pos..]` for `tag_pos = ct.len() - 16`. -/
def tagBytes (ct : List UInt8) (long : ¬ ct.length < 16) : Tag :=
  ⟨(ct.drop (ct.length - 16)).toArray, by simp; omega⟩

def TrafficKeys.open (cipher : Aes128Gcm) (keys : TrafficKeys) (header : Header)
    (ct : List UInt8) : TrafficKeys × Except Stop (List UInt8) :=
  if short : ct.length < 16 then (keys, .error (.error "AES-GCM: ciphertext too short for tag"))
  else if keys.seq = u64Max then (keys, .error (.error exhausted))
  else
    match cipher.decrypt keys.nonce header (ct.take (ct.length - 16)) (tagBytes ct short) with
    | none => (keys, .error (.error "AES-GCM decrypt failed"))
    | some inner => ({ keys with seq := keys.seq + 1 }, .ok inner)

/-! ## Nonces -/

theorem xor_cancel (b m n : UInt8) (same : b ^^^ m = b ^^^ n) : m = n :=
  UInt8.xor_right_inj b |>.mp same

theorem zipWith_xor_inj {base first second : List UInt8} (left : first.length = base.length)
    (right : second.length = base.length)
    (same : base.zipWith (· ^^^ ·) first = base.zipWith (· ^^^ ·) second) : first = second := by
  induction base generalizing first second with
  | nil =>
    have := List.eq_nil_of_length_eq_zero left
    have := List.eq_nil_of_length_eq_zero right
    simp_all
  | cons b base ih =>
    obtain _ | ⟨m, first⟩ := first
    · cases left
    obtain _ | ⟨n, second⟩ := second
    · cases right
    simp only [List.zipWith_cons_cons, List.cons.injEq] at same
    have head := xor_cancel b m n same.1
    have tail := ih (Nat.succ.inj left) (Nat.succ.inj right) same.2
    rw [head, tail]

/-- Under one IV the nonce determines the counter. -/
theorem nonce_inj {iv : Vector UInt8 12} {p q : UInt64}
    (same : (TrafficKeys.mk iv p).nonce = (TrafficKeys.mk iv q).nonce) : p = q := by
  have lists := congrArg Vector.toList same
  simp only [TrafficKeys.nonce] at lists
  have tails := List.append_cancel_left lists
  have bytes := zipWith_xor_inj (by simp) (by simp) tails
  have small (n : UInt64) : n.toNat < 256 ^ 8 := n.toNat_lt
  exact UInt64.toNat_inj.mp (toBeBytes_inj (small p) (small q) bytes)

/-! ## One call -/

theorem next_toNat {q : UInt64} (room : q ≠ u64Max) : (q + 1).toNat = q.toNat + 1 := by
  have last : q.toNat ≠ 18446744073709551615 := fun full => room (UInt64.toNat_inj.mp full)
  have bound := q.toNat_lt
  have sum : (q + 1).toNat = (q.toNat + 1) % 2 ^ 64 := UInt64.toNat_add q 1
  omega

theorem seal_cases (cipher : Aes128Gcm) (keys : TrafficKeys) (header : Header)
    (inner : List UInt8) :
    (∃ stop, keys.seal cipher header inner = (keys, .error stop)) ∨
      ∃ ct tag, keys.seq ≠ u64Max ∧ cipher.encrypt keys.nonce header inner = some (ct, tag) ∧
        keys.seal cipher header inner =
          ({ keys with seq := keys.seq + 1 }, .ok (ct ++ tag.toList)) := by
  by_cases full : keys.seq = u64Max
  · exact .inl ⟨.error exhausted, if_pos full⟩
  · cases encrypted : cipher.encrypt keys.nonce header inner with
    | none =>
      refine .inl ⟨.panicked "AES-GCM encrypt failed", ?_⟩
      simp only [TrafficKeys.seal, if_neg full, encrypted]
    | some pair =>
      refine .inr ⟨pair.1, pair.2, full, rfl, ?_⟩
      simp only [TrafficKeys.seal, if_neg full, encrypted]

theorem open_cases (cipher : Aes128Gcm) (keys : TrafficKeys) (header : Header)
    (ct : List UInt8) :
    (∃ stop, keys.open cipher header ct = (keys, .error stop)) ∨
      ∃ inner, keys.seq ≠ u64Max ∧
        keys.open cipher header ct = ({ keys with seq := keys.seq + 1 }, .ok inner) := by
  by_cases short : ct.length < 16
  · exact .inl ⟨_, dif_pos short⟩
  by_cases full : keys.seq = u64Max
  · refine .inl ⟨.error exhausted, ?_⟩
    simp only [TrafficKeys.open, dif_neg short, if_pos full]
  · simp only [TrafficKeys.open, dif_neg short, if_neg full]
    split
    · exact .inl ⟨_, rfl⟩
    · exact .inr ⟨_, full, rfl⟩

theorem tagBytes_behind {ct : List UInt8} {tag : Tag}
    (long : ¬ (ct ++ tag.toList).length < 16) : tagBytes (ct ++ tag.toList) long = tag := by
  apply Vector.toList_inj.mp
  simp [tagBytes, Vector.toList]

/-- The receiver at the sender's counter opens what the sender sealed. -/
theorem open_sealed {cipher : Aes128Gcm} (ideal : cipher.Ideal) {keys : TrafficKeys}
    (room : keys.seq ≠ u64Max) {header : Header} {inner ct : List UInt8} {tag : Tag}
    (encrypted : cipher.encrypt keys.nonce header inner = some (ct, tag)) :
    keys.open cipher header (ct ++ tag.toList) =
      ({ keys with seq := keys.seq + 1 }, .ok inner) := by
  have long : ¬ (ct ++ tag.toList).length < 16 := by simp
  have tagPos : (ct ++ tag.toList).length - 16 = ct.length := by simp
  have decrypted := (ideal.opens keys.nonce header inner ct tag).mpr encrypted
  simp only [TrafficKeys.open, dif_neg long, if_neg room, tagPos, List.take_left,
    tagBytes_behind long, decrypted]

/-- A call that returns `Ok` counts one record, any other leaves the keys alone. -/
def Counts (before after : TrafficKeys) (result : Except Stop (List UInt8)) : Prop :=
  match result with
  | .ok _ => after.iv = before.iv ∧ after.seq.toNat = before.seq.toNat + 1
  | .error _ => after = before

theorem seal_counts (cipher : Aes128Gcm) (keys : TrafficKeys) (header : Header)
    (inner : List UInt8) :
    Counts keys (keys.seal cipher header inner).1 (keys.seal cipher header inner).2 := by
  obtain ⟨stop, refused⟩ | ⟨ct, tag, room, _, accepted⟩ := seal_cases cipher keys header inner
  · rw [refused]
    rfl
  · rw [accepted]
    exact ⟨rfl, next_toNat room⟩

theorem open_counts (cipher : Aes128Gcm) (keys : TrafficKeys) (header : Header)
    (ct : List UInt8) :
    Counts keys (keys.open cipher header ct).1 (keys.open cipher header ct).2 := by
  obtain ⟨stop, refused⟩ | ⟨inner, room, accepted⟩ := open_cases cipher keys header ct
  · rw [refused]
    rfl
  · rw [accepted]
    exact ⟨rfl, next_toNat room⟩

/-! ## A sender and a receiver -/

/-- A sealed record on its way, with what was sealed. -/
structure Sealed where
  header : Header
  inner : List UInt8
  record : List UInt8

structure Flow where
  sender : TrafficKeys
  receiver : TrafficKeys
  pending : List Sealed

/-- Keys of one secret on both sides, and nothing on its way. -/
def Flow.new (iv : Vector UInt8 12) (seq : UInt64) : Flow := ⟨⟨iv, seq⟩, ⟨iv, seq⟩, []⟩

inductive Call where
  | send (header : Header) (inner : List UInt8)
  | deliver
  | inject (header : Header) (ct : List UInt8)

/-- `deliver` opens the oldest sealed record, `inject` any other bytes. -/
def step (cipher : Aes128Gcm) (flow : Flow) : Call → Flow
  | .send header inner =>
    match flow.sender.seal cipher header inner with
    | (sender, .ok record) =>
      { flow with sender := sender, pending := flow.pending ++ [⟨header, inner, record⟩] }
    | (sender, .error _) => { flow with sender := sender }
  | .deliver =>
    match flow.pending with
    | [] => flow
    | first :: pending =>
      { flow with
        receiver := (flow.receiver.open cipher first.header first.record).1
        pending := pending }
  | .inject header ct =>
    { flow with receiver := (flow.receiver.open cipher header ct).1 }

def run (cipher : Aes128Gcm) (flow : Flow) (calls : List Call) : Flow :=
  calls.foldl (step cipher) flow

/-- The nonce of a successful seal, with what it sealed. -/
def sealing (cipher : Aes128Gcm) (flow : Flow) : Call → List (Nonce × List UInt8)
  | .send header inner =>
    match (flow.sender.seal cipher header inner).2 with
    | .ok _ => [(flow.sender.nonce, inner)]
    | .error _ => []
  | _ => []

def sealings (cipher : Aes128Gcm) : Flow → List Call → List (Nonce × List UInt8)
  | _, [] => []
  | flow, call :: calls => sealing cipher flow call ++ sealings cipher (step cipher flow call) calls

/-- What opening the oldest sealed record returns. -/
def opening (cipher : Aes128Gcm) (flow : Flow) : Call → List (Except Stop (List UInt8))
  | .deliver =>
    match flow.pending with
    | [] => []
    | first :: _ => [(flow.receiver.open cipher first.header first.record).2]
  | _ => []

def openings (cipher : Aes128Gcm) : Flow → List Call → List (Except Stop (List UInt8))
  | _, [] => []
  | flow, call :: calls => opening cipher flow call ++ openings cipher (step cipher flow call) calls

/-- Every injected record fails to open where it arrives. -/
def ForgeriesFail (cipher : Aes128Gcm) : Flow → List Call → Prop
  | _, [] => True
  | flow, call :: calls =>
    (∀ header ct, call = .inject header ct →
      ∃ stop, (flow.receiver.open cipher header ct).2 = .error stop) ∧
    ForgeriesFail cipher (step cipher flow call) calls

/-! ## The sender's nonces -/

theorem step_sender (cipher : Aes128Gcm) (flow : Flow) (call : Call) :
    (sealing cipher flow call = [] ∧ (step cipher flow call).sender = flow.sender) ∨
      ∃ inner, sealing cipher flow call = [(flow.sender.nonce, inner)] ∧
        (step cipher flow call).sender.iv = flow.sender.iv ∧
        (step cipher flow call).sender.seq.toNat = flow.sender.seq.toNat + 1 := by
  cases call with
  | send header inner =>
    obtain ⟨stop, refused⟩ | ⟨ct, tag, room, _, accepted⟩ :=
      seal_cases cipher flow.sender header inner
    · refine .inl ⟨?_, ?_⟩
      · simp only [sealing, refused]
      · simp only [step, refused]
    · refine .inr ⟨inner, ?_, ?_, ?_⟩
      · simp only [sealing, accepted]
      · simp only [step, accepted]
      · simp only [step, accepted]
        exact next_toNat room
  | deliver =>
    refine .inl ⟨rfl, ?_⟩
    cases waiting : flow.pending with
    | nil => simp only [step, waiting]
    | cons first pending => simp only [step, waiting]
  | inject header ct => exact .inl ⟨rfl, rfl⟩

theorem sender_counts (cipher : Aes128Gcm) (flow : Flow) (calls : List Call) :
    (run cipher flow calls).sender.seq.toNat =
      flow.sender.seq.toNat + (sealings cipher flow calls).length := by
  induction calls generalizing flow with
  | nil => rfl
  | cons call calls ih =>
    have later := ih (step cipher flow call)
    rw [sealings, List.length_append]
    obtain ⟨idle, kept⟩ | ⟨inner, sealed, _, counted⟩ := step_sender cipher flow call
    · rw [kept] at later
      rw [idle, List.length_nil, Nat.zero_add]
      exact later
    · have one : (sealing cipher flow call).length = 1 := congrArg List.length sealed
      have same : (run cipher flow (call :: calls)) = run cipher (step cipher flow call) calls := rfl
      rw [same]
      omega

/-- Every nonce of a run belongs to a counter from the sender's on. -/
theorem sealings_from (cipher : Aes128Gcm) (flow : Flow) (calls : List Call) :
    ∀ entry ∈ sealings cipher flow calls, ∃ q : UInt64,
      flow.sender.seq.toNat ≤ q.toNat ∧ entry.1 = (TrafficKeys.mk flow.sender.iv q).nonce := by
  induction calls generalizing flow with
  | nil => simp [sealings]
  | cons call calls ih =>
    intro entry listed
    obtain now | later := List.mem_append.mp listed
    · obtain ⟨idle, _⟩ | ⟨inner, sealed, _, _⟩ := step_sender cipher flow call
      · rw [idle] at now
        cases now
      · rw [sealed] at now
        cases List.mem_singleton.mp now
        exact ⟨flow.sender.seq, Nat.le_refl _, rfl⟩
    · obtain ⟨q, from_here, used⟩ := ih (step cipher flow call) entry later
      obtain ⟨_, kept⟩ | ⟨_, _, same_iv, counted⟩ := step_sender cipher flow call
      · rw [kept] at from_here used
        exact ⟨q, from_here, used⟩
      · rw [same_iv] at used
        exact ⟨q, by omega, used⟩

theorem sealings_nodup (cipher : Aes128Gcm) (flow : Flow) (calls : List Call) :
    ((sealings cipher flow calls).map Prod.fst).Nodup := by
  induction calls generalizing flow with
  | nil => exact List.nodup_nil
  | cons call calls ih =>
    have later := ih (step cipher flow call)
    obtain ⟨idle, _⟩ | ⟨inner, sealed, same_iv, counted⟩ := step_sender cipher flow call
    · rw [sealings, idle]
      exact later
    · rw [sealings, sealed]
      refine List.nodup_cons.mpr ⟨?_, later⟩
      intro reused
      obtain ⟨entry, listed, same⟩ := List.mem_map.mp reused
      obtain ⟨q, from_next, used⟩ := sealings_from cipher (step cipher flow call) calls entry listed
      rw [same_iv] at used
      have clash : flow.sender.seq = q := nonce_inj (same.symm.trans used)
      subst clash
      omega

/-! ## The receiver follows -/

/-- The records on their way were sealed under the counters from `q` up to `last`. -/
def Queued (cipher : Aes128Gcm) (iv : Vector UInt8 12) : UInt64 → List Sealed → UInt64 → Prop
  | q, [], last => q = last
  | q, first :: pending, last =>
    (∃ ct tag, q ≠ u64Max ∧
      cipher.encrypt (TrafficKeys.mk iv q).nonce first.header first.inner = some (ct, tag) ∧
      first.record = ct ++ tag.toList) ∧
    Queued cipher iv (q + 1) pending last

theorem Queued.append {cipher : Aes128Gcm} {iv : Vector UInt8 12} {q last : UInt64}
    {pending : List Sealed} (queued : Queued cipher iv q pending last) {sealed : Sealed}
    {ct : List UInt8} {tag : Tag} (room : last ≠ u64Max)
    (encrypted : cipher.encrypt (TrafficKeys.mk iv last).nonce sealed.header sealed.inner =
      some (ct, tag)) (record : sealed.record = ct ++ tag.toList) :
    Queued cipher iv q (pending ++ [sealed]) (last + 1) := by
  induction pending generalizing q with
  | nil =>
    cases (show q = last from queued)
    exact ⟨⟨ct, tag, room, encrypted, record⟩, rfl⟩
  | cons first pending ih => exact ⟨queued.1, ih queued.2⟩

structure InStep (cipher : Aes128Gcm) (flow : Flow) : Prop where
  same_iv : flow.receiver.iv = flow.sender.iv
  queued : Queued cipher flow.sender.iv flow.receiver.seq flow.pending flow.sender.seq

theorem InStep.new (cipher : Aes128Gcm) (iv : Vector UInt8 12) (seq : UInt64) :
    InStep cipher (Flow.new iv seq) := by
  constructor
  · rfl
  · exact (rfl : seq = seq)

theorem InStep.opens_first {cipher : Aes128Gcm} (ideal : cipher.Ideal) {flow : Flow}
    (in_step : InStep cipher flow) {first : Sealed} {pending : List Sealed}
    (waiting : flow.pending = first :: pending) :
    flow.receiver.open cipher first.header first.record =
      ({ flow.receiver with seq := flow.receiver.seq + 1 }, .ok first.inner) := by
  obtain ⟨same_iv, queued⟩ := in_step
  rw [waiting] at queued
  obtain ⟨⟨ct, tag, room, encrypted, record⟩, _⟩ := queued
  have nonce : flow.receiver.nonce = (TrafficKeys.mk flow.sender.iv flow.receiver.seq).nonce := by
    rw [← same_iv]
  rw [record]
  exact open_sealed ideal room (nonce ▸ encrypted)

theorem InStep.step {cipher : Aes128Gcm} (ideal : cipher.Ideal) {flow : Flow}
    (in_step : InStep cipher flow) {call : Call}
    (fails : ∀ header ct, call = .inject header ct →
      ∃ stop, (flow.receiver.open cipher header ct).2 = .error stop) :
    InStep cipher (step cipher flow call) := by
  cases call with
  | send header inner =>
    obtain ⟨stop, refused⟩ | ⟨ct, tag, room, encrypted, accepted⟩ :=
      seal_cases cipher flow.sender header inner
    · simp only [TlsTraffic.step, refused]
      exact in_step
    · simp only [TlsTraffic.step, accepted]
      exact ⟨in_step.same_iv, in_step.queued.append room encrypted rfl⟩
  | deliver =>
    cases waiting : flow.pending with
    | nil =>
      simp only [TlsTraffic.step, waiting]
      exact in_step
    | cons first pending =>
      have opened := in_step.opens_first ideal waiting
      have queued := in_step.queued
      rw [waiting] at queued
      simp only [TlsTraffic.step, waiting, opened]
      exact ⟨in_step.same_iv, queued.2⟩
  | inject header ct =>
    obtain ⟨stop, failed⟩ := fails header ct rfl
    have kept := open_counts cipher flow.receiver header ct
    rw [failed] at kept
    simp only [TlsTraffic.step]
    rw [show (flow.receiver.open cipher header ct).1 = flow.receiver from kept]
    exact in_step

theorem step_order {cipher : Aes128Gcm} (ideal : cipher.Ideal) {flow : Flow}
    (in_step : InStep cipher flow) (call : Call) :
    ∃ opened : List (List UInt8), opening cipher flow call = opened.map .ok ∧
      flow.pending.map Sealed.inner ++ (sealing cipher flow call).map Prod.snd =
        opened ++ (step cipher flow call).pending.map Sealed.inner := by
  cases call with
  | send header inner =>
    refine ⟨[], rfl, ?_⟩
    obtain ⟨stop, refused⟩ | ⟨ct, tag, _, _, accepted⟩ :=
      seal_cases cipher flow.sender header inner
    · simp only [sealing, step, refused]
      simp
    · simp only [sealing, step, accepted]
      simp
  | deliver =>
    cases waiting : flow.pending with
    | nil =>
      refine ⟨[], ?_, ?_⟩
      · simp only [opening, waiting, List.map_nil]
      · simp only [step, waiting]
        simp [sealing]
    | cons first pending =>
      have opened := in_step.opens_first ideal waiting
      refine ⟨[first.inner], ?_, ?_⟩
      · simp only [opening, waiting, opened, List.map_cons, List.map_nil]
      · simp only [step, waiting]
        simp [sealing]
  | inject header ct => exact ⟨[], rfl, List.append_nil _⟩

theorem run_order {cipher : Aes128Gcm} (ideal : cipher.Ideal) {flow : Flow}
    (in_step : InStep cipher flow) {calls : List Call} (fails : ForgeriesFail cipher flow calls) :
    ∃ opened : List (List UInt8), openings cipher flow calls = opened.map .ok ∧
      flow.pending.map Sealed.inner ++ (sealings cipher flow calls).map Prod.snd =
        opened ++ (run cipher flow calls).pending.map Sealed.inner := by
  induction calls generalizing flow with
  | nil => exact ⟨[], rfl, List.append_nil _⟩
  | cons call calls ih =>
    obtain ⟨now, now_ok, now_order⟩ := step_order ideal in_step call
    obtain ⟨later, later_ok, later_order⟩ := ih (in_step.step ideal fails.1) fails.2
    refine ⟨now ++ later, ?_, ?_⟩
    · rw [openings, now_ok, later_ok, List.map_append]
    · rw [sealings, List.map_append, ← List.append_assoc, now_order, List.append_assoc, later_order,
        List.append_assoc]
      rfl

/-- Whatever is sealed, delivered and injected on keys of one secret: no nonce seals
twice, the counter is the count of sealed records and never wraps, only a successful
call moves it, and if injected records fail to open then what is delivered opens, in
order, to what was sealed. -/
theorem keys_in_step (cipher : Aes128Gcm) (ideal : cipher.Ideal) (iv : Vector UInt8 12)
    (seq : UInt64) (calls : List Call) :
    ((sealings cipher (Flow.new iv seq) calls).map Prod.fst).Nodup ∧
      (run cipher (Flow.new iv seq) calls).sender.seq.toNat =
        seq.toNat + (sealings cipher (Flow.new iv seq) calls).length ∧
      (∀ (keys : TrafficKeys) header inner,
        Counts keys (keys.seal cipher header inner).1 (keys.seal cipher header inner).2) ∧
      (∀ (keys : TrafficKeys) header ct,
        Counts keys (keys.open cipher header ct).1 (keys.open cipher header ct).2) ∧
      (ForgeriesFail cipher (Flow.new iv seq) calls →
        ∃ opened : List (List UInt8),
          openings cipher (Flow.new iv seq) calls = opened.map .ok ∧
          (sealings cipher (Flow.new iv seq) calls).map Prod.snd =
            opened ++ (run cipher (Flow.new iv seq) calls).pending.map Sealed.inner) :=
  ⟨sealings_nodup cipher (Flow.new iv seq) calls, sender_counts cipher (Flow.new iv seq) calls,
    seal_counts cipher, open_counts cipher, run_order ideal (InStep.new cipher iv seq)⟩

/-! ## A ping -/

def pingHeader : Header := #v[23, 3, 3, 0, 21]

def pingInner : List UInt8 := [80, 73, 78, 71, 23]

def pingCiphertext : List UInt8 := [83, 193, 148, 137, 119]

def pingTag : Tag :=
  #v[29, 99, 204, 136, 192, 8, 191, 180, 152, 177, 247, 70, 145, 224, 101, 26]

/-- AES-128-GCM under the all-zero key, on the one record of a ping. -/
def pingCipher : Aes128Gcm where
  encrypt nonce header inner :=
    if nonce = Vector.replicate 12 0 ∧ header = pingHeader ∧ inner = pingInner then
      some (pingCiphertext, pingTag)
    else none
  decrypt nonce header ct tag :=
    if (nonce = Vector.replicate 12 0 ∧ header = pingHeader) ∧
        ct = pingCiphertext ∧ tag = pingTag then
      some pingInner
    else none

theorem pingCipher_ideal : pingCipher.Ideal := by
  constructor
  intro nonce header inner ct tag
  simp only [pingCipher, Option.ite_none_right_eq_some, Option.some.injEq, Prod.mk.injEq]
  constructor
  · rintro ⟨⟨⟨at_nonce, at_header⟩, whole, tagged⟩, sealed⟩
    exact ⟨⟨at_nonce, at_header, sealed.symm⟩, whole.symm, tagged.symm⟩
  · rintro ⟨⟨at_nonce, at_header, sealed⟩, whole, tagged⟩
    exact ⟨⟨⟨at_nonce, at_header⟩, whole.symm, tagged.symm⟩, sealed.symm⟩

/-- A forged record before the ping leaves the ping readable. -/
theorem keys_in_step_ping :
    ∃ opened : List (List UInt8),
      openings pingCipher (Flow.new (Vector.replicate 12 0) 0)
        [.send pingHeader pingInner, .inject pingHeader [1, 2, 3], .deliver] = opened.map .ok ∧
      (sealings pingCipher (Flow.new (Vector.replicate 12 0) 0)
        [.send pingHeader pingInner, .inject pingHeader [1, 2, 3], .deliver]).map Prod.snd =
        opened ++ (run pingCipher (Flow.new (Vector.replicate 12 0) 0)
          [.send pingHeader pingInner, .inject pingHeader [1, 2, 3], .deliver]).pending.map
            Sealed.inner := by
  apply (keys_in_step pingCipher pingCipher_ideal (Vector.replicate 12 0) 0
    [.send pingHeader pingInner, .inject pingHeader [1, 2, 3], .deliver]).2.2.2.2
  simp only [ForgeriesFail, reduceCtorEq, false_implies, implies_true, and_true, true_and,
    Call.inject.injEq]
  rintro header ct ⟨rfl, rfl⟩
  exact ⟨.error "AES-GCM: ciphertext too short for tag", rfl⟩

end TlsTraffic
