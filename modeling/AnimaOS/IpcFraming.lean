import AnimaOS.CortexBridge
import AnimaOS.FixedWidth
import AnimaOS.Machine
import AnimaOS.ShortReads

/-!
# Frames between vita and the cortex

A frame is a length prefix of four bytes and a JSON body. The stream delivers the
frames in short reads and may end inside one of them.
-/

namespace IpcFraming

open CortexBridge FixedWidth Machine ShortReads

universe u

/-- `serde_json::to_vec` and `from_slice`. -/
structure Serde (V : Type u) where
  toVec : V → List UInt8
  fromSlice : List UInt8 → Except Text V

def maxFrameLen : Nat := 16 * 1024 * 1024

def toBeBytes (n : Nat) : List UInt8 :=
  [.ofNat (n / 2 ^ 24), .ofNat (n / 2 ^ 16), .ofNat (n / 2 ^ 8), .ofNat n]

def fromBeBytes (header : List UInt8) : Nat :=
  header.foldl (fun n byte => n * 2 ^ 8 + byte.toNat) 0

def ioErrorText : ReadError → Text
  | .interrupted => "Interrupted system call (os error 4)".toList
  | .unexpectedEof => "connection closed mid-message".toList

def readExactBytes (n : Nat) (stream : List (Arrival UInt8)) :
    List (Arrival UInt8) × Except ReadError (Option (List UInt8)) :=
  readExact n [] stream

section Frames

variable {V : Type u} (serde : Serde V)

def fromSlice (body : List UInt8) : Except CortexError (Option V) :=
  match serde.fromSlice body with
  | .ok v => .ok (some v)
  | .error e => .error (.ipcError ("JSON parse error: ".toList ++ e))

def recvIpc (stream : List (Arrival UInt8)) :
    List (Arrival UInt8) × Except CortexError (Option V) :=
  match readExactBytes 4 stream with
  | (stream, .error e) => (stream, .error (.ipcError (ioErrorText e)))
  | (stream, .ok none) => (stream, .ok none)
  | (stream, .ok (some header)) =>
    let length := fromBeBytes header
    if length > maxFrameLen then
      (stream, .error (.ipcError ("cortex frame too large: ".toList ++
        (toString length).toList ++ " bytes (max ".toList ++ (toString maxFrameLen).toList ++
        ")".toList)))
    else
      match readExactBytes length stream with
      | (stream, .error e) => (stream, .error (.ipcError (ioErrorText e)))
      | (stream, .ok none) => (stream, .error .unexpectedEof)
      | (stream, .ok (some body)) => (stream, fromSlice serde body)

def frame (body : List UInt8) : List UInt8 := toBeBytes (wrap 32 body.length) ++ body

/-- What `send_ipc` writes to the stream. -/
def sendIpc (msg : V) : List UInt8 := frame (serde.toVec msg)

/-- The answers of a number of calls. -/
def received (calls : Nat) (stream : List (Arrival UInt8)) : List (Except CortexError (Option V)) :=
  (trace (fun stream (_ : Unit) => recvIpc serde stream) stream
    (List.replicate calls ())).map Call.response

/-- The bodies whose frames are whole in the first `cut` bytes. -/
def whole (cut : Nat) : List (List UInt8) → List (List UInt8)
  | [] => []
  | body :: rest =>
    if (frame body).length ≤ cut then body :: whole (cut - (frame body).length) rest else []

def frames (bodies : List (List UInt8)) : List UInt8 := bodies.flatMap frame

/-- The stream ends between two frames. -/
def AtBoundary (cut : Nat) (bodies : List (List UInt8)) : Prop :=
  (frames bodies).take cut = frames (whole cut bodies)

instance (cut : Nat) (bodies : List (List UInt8)) : Decidable (AtBoundary cut bodies) :=
  inferInstanceAs (Decidable (_ = _))

/-- The whole bodies are received in order, then the end of the stream, or an error in a frame. -/
def Lossless (cut : Nat) (bodies : List (List UInt8)) (stream : List (Arrival UInt8)) : Prop :=
  ∃ last, received serde ((whole cut bodies).length + 1) stream =
      (whole cut bodies).map (fromSlice serde) ++ [last] ∧
    if AtBoundary cut bodies then last = .ok none else ∃ e, last = .error e

/-- No read is interrupted before the whole frames have arrived, and none at all if the stream ends
with them. -/
def Undisturbed (cut : Nat) (bodies : List (List UInt8)) (stream : List (Arrival UInt8)) : Prop :=
  ∀ k, interruptedAt stream = some k →
    ¬ AtBoundary cut bodies ∧ (frames (whole cut bodies)).length ≤ k

/-! ## The length prefix -/

theorem fromBeBytes_toBeBytes {n : Nat} (h : n < 2 ^ 32) : fromBeBytes (toBeBytes n) = n := by
  simp only [fromBeBytes, toBeBytes, List.foldl_cons, List.foldl_nil, UInt8.toNat_ofNat']
  omega

theorem frame_header {body : List UInt8} (small : body.length ≤ maxFrameLen) :
    fromBeBytes ((frame body).take 4) = body.length := by
  have fits : body.length < 2 ^ 32 := by
    simp only [maxFrameLen] at small
    omega
  have header : (frame body).take 4 = toBeBytes (wrap 32 body.length) := rfl
  rw [header, wrap, Nat.mod_eq_of_lt fits, fromBeBytes_toBeBytes fits]

theorem frame_length (body : List UInt8) : (frame body).length = body.length + 4 := rfl

/-! ## One frame -/

variable {stream : List (Arrival UInt8)} {body later : List UInt8}

/-- The calls of `recv_ipc` after a header that announces `length` bytes. -/
theorem recvIpc_header {header : List UInt8} {after : List (Arrival UInt8)} {length : Nat}
    (read : readExactBytes 4 stream = (after, .ok (some header)))
    (announced : fromBeBytes header = length) (small : length ≤ maxFrameLen) :
    recvIpc serde stream =
      match readExactBytes length after with
      | (stream, .error e) => (stream, .error (.ipcError (ioErrorText e)))
      | (stream, .ok none) => (stream, .error .unexpectedEof)
      | (stream, .ok (some body)) => (stream, fromSlice serde body) := by
  simp only [recvIpc, read, announced, if_neg (Nat.not_lt.mpr small)]

theorem read_header {rest : List UInt8} (arrives : content stream = (frame body).take 4 ++ rest)
    (calm : ∀ k, interruptedAt stream = some k → 4 ≤ k) :
    ∃ after, readExactBytes 4 stream = (after, .ok (some ((frame body).take 4))) ∧
      content after = rest ∧ interruptedAt after = (interruptedAt stream).map (· - 4) := by
  have four : ((frame body).take 4).length = 4 := rfl
  have enough : 4 ≤ (content stream).length := by
    rw [arrives, List.length_append]
    omega
  obtain ⟨after, read, remains, position⟩ := readExact_enough enough calm []
  refine ⟨after, ?_, ?_, position⟩
  · rw [readExactBytes, read, arrives, List.nil_append, List.take_left' four]
  · rw [remains, arrives, List.drop_left' four]

theorem frame_split (body : List UInt8) : frame body = (frame body).take 4 ++ body := rfl

theorem recv_frame (small : body.length ≤ maxFrameLen)
    (arrives : content stream = frame body ++ later)
    (calm : ∀ k, interruptedAt stream = some k → (frame body).length ≤ k) :
    ∃ after, recvIpc serde stream = (after, fromSlice serde body) ∧ content after = later ∧
      interruptedAt after = (interruptedAt stream).map (· - (frame body).length) := by
  have total := frame_length body
  rw [frame_split, List.append_assoc] at arrives
  obtain ⟨middle, header, remains, position⟩ := read_header arrives fun k found => by
    have far := calm k found
    omega
  have enough : body.length ≤ (content middle).length := by
    rw [remains, List.length_append]
    omega
  obtain ⟨after, read, rest, position'⟩ := readExact_enough enough (fun k found => by
    rw [position] at found
    obtain ⟨j, at_, rfl⟩ := Option.map_eq_some_iff.mp found
    have far := calm j at_
    omega) []
  refine ⟨after, ?_, ?_, ?_⟩
  · rw [recvIpc_header serde header (frame_header small) small, readExactBytes, read, remains,
      List.take_left' rfl]
    rfl
  · rw [rest, remains, List.drop_left' rfl]
  · rw [position', position, Option.map_map]
    congr 1
    funext k
    simp only [Function.comp_apply]
    omega

/-- A length prefix that does not arrive is an error, or the end if nothing arrives at all. -/
theorem recv_header_short
    (short : (content stream).length < 4 ∨ ∃ k < 4, interruptedAt stream = some k) :
    (∃ after e, recvIpc serde stream = (after, .error (.ipcError (ioErrorText e)))) ∨
      (content stream = [] ∧ interruptedAt stream = none ∧
        recvIpc serde stream = ([], .ok none)) := by
  rcases readExact_short (by decide) short [] with ⟨after, e, failed⟩ | ⟨-, empty, calm, ended⟩
  · exact Or.inl ⟨after, e, by simp only [recvIpc, readExactBytes, failed]⟩
  · exact Or.inr ⟨empty, calm, by simp only [recvIpc, readExactBytes, ended]⟩

/-- A body that does not arrive is an error, and the end of the stream has one of its own. -/
theorem recv_body_short {header : List UInt8} {middle : List (Arrival UInt8)}
    (read : readExactBytes 4 stream = (middle, .ok (some header)))
    (announced : fromBeBytes header = body.length) (small : body.length ≤ maxFrameLen)
    (short : (content middle).length < body.length ∨
      ∃ k < body.length, interruptedAt middle = some k) :
    (∃ after e, recvIpc serde stream = (after, .error (.ipcError (ioErrorText e)))) ∨
      (interruptedAt middle = none ∧ recvIpc serde stream = ([], .error .unexpectedEof)) := by
  have some : body.length ≠ 0 := by omega
  rw [recvIpc_header serde read announced small]
  rcases readExact_short some short [] with ⟨after, e, failed⟩ | ⟨-, -, calm, ended⟩
  · exact Or.inl ⟨after, e, by simp only [readExactBytes, failed]⟩
  · exact Or.inr ⟨calm, by simp only [readExactBytes, ended]⟩

/-- An interrupted read ends the call with an error, wherever in the frame it comes. -/
theorem recv_disturbed {k : Nat} (small : body.length ≤ maxFrameLen)
    (arrives : content stream = frame body ++ later) (disturbed : interruptedAt stream = some k)
    (inside : k < (frame body).length) :
    ∃ after e, recvIpc serde stream = (after, .error (.ipcError (ioErrorText e))) := by
  have total := frame_length body
  by_cases early : k < 4
  · rcases recv_header_short serde (Or.inr ⟨k, early, disturbed⟩) with failed | ⟨-, calm, -⟩
    · exact failed
    · rw [calm] at disturbed
      cases disturbed
  · rw [frame_split, List.append_assoc] at arrives
    obtain ⟨middle, header, -, position⟩ := read_header arrives fun j found => by
      rw [disturbed] at found
      cases found
      omega
    rw [disturbed, Option.map_some] at position
    rcases recv_body_short serde header (frame_header small) small
      (Or.inr ⟨k - 4, by omega, position⟩) with failed | ⟨calm, -⟩
    · exact failed
    · rw [calm] at position
      cases position

/-- A frame that is cut off is an error, also when reads are interrupted. -/
theorem recv_cut {cut : Nat} (small : body.length ≤ maxFrameLen)
    (arrives : content stream = (frame body).take cut) (some : cut ≠ 0)
    (inside : cut < (frame body).length) : ∃ after e, recvIpc serde stream = (after, .error e) := by
  have total := frame_length body
  have length : (content stream).length = cut := by
    rw [arrives, List.length_take]
    omega
  by_cases header_short : (content stream).length < 4 ∨ ∃ k < 4, interruptedAt stream = .some k
  · rcases recv_header_short serde header_short with ⟨after, e, failed⟩ | ⟨empty, -⟩
    · exact ⟨after, _, failed⟩
    · rw [empty] at length
      exact absurd length.symm some
  · obtain ⟨header, calm⟩ := not_or.mp header_short
    have cut_body : (frame body).take cut = (frame body).take 4 ++ body.take (cut - 4) := by
      have four : ((frame body).take 4).length = 4 := rfl
      rw [frame_split body, List.take_append, List.take_of_length_le (by omega)]
      rfl
    obtain ⟨middle, read, remains, -⟩ := read_header (arrives.trans cut_body) fun k found =>
      Nat.not_lt.mp fun early => calm ⟨k, early, found⟩
    have short : (content middle).length < body.length := by
      rw [remains, List.length_take]
      omega
    rcases recv_body_short serde read (frame_header small) small (Or.inl short) with
      ⟨after, e, failed⟩ | ⟨-, ended⟩
    · exact ⟨after, _, failed⟩
    · exact ⟨[], _, ended⟩

theorem nothing_arrives (empty : content stream = []) (calm : interruptedAt stream = none) :
    stream = [] := by
  cases stream with
  | nil => rfl
  | cons arrival rest =>
    cases arrival with
    | chunk first more => cases empty
    | interrupted => cases calm

/-- At the end of the stream there is no further frame, unless the read is interrupted. -/
theorem recv_end (empty : content stream = []) :
    (interruptedAt stream = none ∧ ∃ after, recvIpc serde stream = (after, .ok none)) ∨
      ((∃ k, interruptedAt stream = some k) ∧
        ∃ after e, recvIpc serde stream = (after, .error e)) := by
  have short : (content stream).length < 4 := by
    rw [empty]
    decide
  rcases recv_header_short serde (Or.inl short) with ⟨after, e, failed⟩ | ⟨-, calm, ended⟩
  · refine Or.inr ⟨Option.ne_none_iff_exists'.mp fun calm => ?_, after, _, failed⟩
    rw [nothing_arrives empty calm, recvIpc, readExactBytes,
      readExact_nil (by decide : 4 ≠ 0)] at failed
    cases failed
  · exact Or.inl ⟨calm, [], ended⟩

/-- Neither I/O error reads like the error of a body that is not JSON. -/
theorem fromSlice_ne_ioError (e : ReadError) :
    fromSlice serde body ≠ .error (.ipcError (ioErrorText e)) := by
  intro same
  unfold fromSlice at same
  split at same
  · cases same
  · cases e <;> cases same

/-! ## Where the stream is cut -/

variable {cut : Nat} {bodies : List (List UInt8)}

theorem whole_fits (fits : (frame body).length ≤ cut) (rest : List (List UInt8)) :
    whole cut (body :: rest) = body :: whole (cut - (frame body).length) rest := if_pos fits

theorem whole_inside (inside : cut < (frame body).length) (rest : List (List UInt8)) :
    whole cut (body :: rest) = [] := if_neg (Nat.not_le.mpr inside)

theorem frames_cons (body : List UInt8) (rest : List (List UInt8)) :
    frames (body :: rest) = frame body ++ frames rest := rfl

theorem take_fits (fits : (frame body).length ≤ cut) (rest : List (List UInt8)) :
    (frames (body :: rest)).take cut =
      frame body ++ (frames rest).take (cut - (frame body).length) := by
  rw [frames_cons, List.take_append, List.take_of_length_le fits]

theorem take_inside (inside : cut < (frame body).length) (rest : List (List UInt8)) :
    (frames (body :: rest)).take cut = (frame body).take cut :=
  List.take_append_of_le_length (Nat.le_of_lt inside)

theorem atBoundary_fits (fits : (frame body).length ≤ cut) (rest : List (List UInt8)) :
    AtBoundary cut (body :: rest) ↔ AtBoundary (cut - (frame body).length) rest := by
  rw [AtBoundary, take_fits fits, whole_fits fits, frames_cons, List.append_cancel_left_eq]
  rfl

theorem atBoundary_inside (inside : cut < (frame body).length) (rest : List (List UInt8)) :
    AtBoundary cut (body :: rest) ↔ cut = 0 := by
  have total := frame_length body
  have nothing : frames [] = [] := rfl
  rw [AtBoundary, take_inside inside, whole_inside inside, nothing, ← List.length_eq_zero_iff,
    List.length_take]
  omega

/-! ## A stream of frames -/

theorem received_succ (calls : Nat) :
    received serde (calls + 1) stream =
      (recvIpc serde stream).2 :: received serde calls (recvIpc serde stream).1 := rfl

theorem lossless_at_end (empty : content stream = []) (none : whole cut bodies = [])
    (boundary : AtBoundary cut bodies) :
    Lossless serde cut bodies stream ↔ Undisturbed cut bodies stream := by
  simp only [Lossless, Undisturbed, none, boundary, not_true_eq_false, false_and, imp_false]
  rcases recv_end serde empty with
    ⟨calm, after, ended⟩ | ⟨⟨k, disturbed⟩, after, e, failed⟩
  · simp [received, trace, ended, calm]
  · simp [received, trace, failed, disturbed]

theorem lossless_cons {after : List (Arrival UInt8)} (fits : (frame body).length ≤ cut)
    (rest : List (List UInt8)) (received : recvIpc serde stream = (after, fromSlice serde body)) :
    Lossless serde cut (body :: rest) stream ↔
      Lossless serde (cut - (frame body).length) rest after := by
  simp only [Lossless, whole_fits fits, atBoundary_fits fits, List.length_cons, received_succ,
    received, List.map_cons, List.cons_append, List.cons.injEq, true_and]

theorem undisturbed_cons {after : List (Arrival UInt8)} (fits : (frame body).length ≤ cut)
    (rest : List (List UInt8)) (calm : ∀ k, interruptedAt stream = some k → (frame body).length ≤ k)
    (position : interruptedAt after = (interruptedAt stream).map (· - (frame body).length)) :
    Undisturbed cut (body :: rest) stream ↔
      Undisturbed (cut - (frame body).length) rest after := by
  simp only [Undisturbed, whole_fits fits, atBoundary_fits fits, frames_cons, List.length_append,
    position]
  cases disturbed : interruptedAt stream with
  | none => simp
  | some k =>
    have far := calm k disturbed
    simp only [Option.some.injEq, forall_eq', Option.map_some]
    rw [Nat.le_sub_iff_add_le far, Nat.add_comm]

/-- The call that meets the interruption does not receive its frame. -/
theorem not_lossless_disturbed {k : Nat} (small : body.length ≤ maxFrameLen)
    (fits : (frame body).length ≤ cut) (rest : List (List UInt8))
    (arrives : content stream = frame body ++ later) (disturbed : interruptedAt stream = some k)
    (inside : k < (frame body).length) : ¬ Lossless serde cut (body :: rest) stream := by
  rintro ⟨last, answers, -⟩
  obtain ⟨after, e, failed⟩ := recv_disturbed serde small arrives disturbed inside
  rw [whole_fits fits, List.length_cons, received_succ, failed] at answers
  exact fromSlice_ne_ioError serde e (List.cons.inj answers).1.symm

theorem lossless_inside (small : body.length ≤ maxFrameLen) (inside : cut < (frame body).length)
    (some : cut ≠ 0) (rest : List (List UInt8)) (arrives : content stream = (frame body).take cut) :
    Lossless serde cut (body :: rest) stream := by
  obtain ⟨after, e, failed⟩ := recv_cut serde small arrives some inside
  refine ⟨.error e, ?_, ?_⟩
  · rw [whole_inside inside, List.length_nil, received_succ, failed]
    rfl
  · rw [if_neg (mt (atBoundary_inside inside rest).mp some)]
    exact ⟨e, rfl⟩

theorem lossless_bodies_iff (small : ∀ body ∈ bodies, body.length ≤ maxFrameLen)
    (arrives : content stream = (frames bodies).take cut) :
    Lossless serde cut bodies stream ↔ Undisturbed cut bodies stream := by
  induction bodies generalizing cut stream with
  | nil =>
    have empty : content stream = [] := arrives.trans List.take_nil
    exact lossless_at_end serde empty rfl List.take_nil
  | cons body rest ih =>
    obtain ⟨small, smalls⟩ := List.forall_mem_cons.mp small
    by_cases fits : (frame body).length ≤ cut
    · rw [take_fits fits] at arrives
      by_cases calm : ∀ k, interruptedAt stream = some k → (frame body).length ≤ k
      · obtain ⟨after, received, remains, position⟩ := recv_frame serde small arrives calm
        rw [lossless_cons serde fits rest received, undisturbed_cons fits rest calm position]
        exact ih smalls remains
      · obtain ⟨k, disturbed, inside⟩ : ∃ k, interruptedAt stream = some k ∧
            k < (frame body).length := by
          simpa using calm
        have lost := not_lossless_disturbed serde small fits rest arrives disturbed inside
        refine iff_of_false lost fun undisturbed => ?_
        have far := (undisturbed k disturbed).2
        rw [whole_fits fits, frames_cons, List.length_append] at far
        omega
    · have inside := Nat.not_le.mp fits
      have boundary := atBoundary_inside inside rest
      rw [take_inside inside] at arrives
      by_cases none : cut = 0
      · subst none
        exact lossless_at_end serde arrives (whole_inside inside rest) (boundary.mpr rfl)
      · refine iff_of_true (lossless_inside serde small inside none rest arrives) fun k _ => ?_
        rw [boundary, whole_inside inside]
        exact ⟨none, Nat.zero_le k⟩

end Frames

/-- The frames arrive without loss exactly when no read is interrupted while they do. -/
theorem recvIpc_lossless_iff {V : Type u} (serde : Serde V) (msgs : List V) (cut : Nat)
    (stream : List (Arrival UInt8)) (small : ∀ msg ∈ msgs, (serde.toVec msg).length ≤ maxFrameLen)
    (arrives : content stream = (msgs.flatMap (sendIpc serde)).take cut) :
    Lossless serde cut (msgs.map serde.toVec) stream ↔
      Undisturbed cut (msgs.map serde.toVec) stream := by
  refine lossless_bodies_iff serde (List.forall_mem_map.mpr small) (arrives.trans ?_)
  rw [frames, List.flatMap_map]
  rfl

/-! ## A frame with one truth value -/

def boolSerde : Serde Bool where
  toVec b := (if b then "true" else "false").toList.map fun c => .ofNat c.toNat
  fromSlice body :=
    if body = [116, 114, 117, 101] then .ok true
    else if body = [102, 97, 108, 115, 101] then .ok false
    else .error "expected value at line 1 column 1".toList

/-- Cut after the first of two frames, in three reads. -/
theorem recvIpc_lossless_true :
    Lossless boolSerde 8 [boolSerde.toVec true, boolSerde.toVec false]
      [.chunk 0 [0], .chunk 0 [4, 116], .chunk 114 [117, 101]] :=
  (recvIpc_lossless_iff boolSerde [true, false] 8 _ (by decide) (by decide)).mpr
    (by simp [Undisturbed, interruptedAt])

/-- Interrupted in the length prefix: no frame is received, though all of it arrives. -/
theorem interrupted_header_lost :
    content [.chunk 0 [0], .interrupted, .chunk 0 [4, 116, 114, 117, 101]] =
        sendIpc boolSerde true ∧
      ¬ Lossless boolSerde 8 [boolSerde.toVec true]
        [.chunk 0 [0], .interrupted, .chunk 0 [4, 116, 114, 117, 101]] :=
  ⟨rfl, not_lossless_disturbed boolSerde (by decide) (by decide) [] (List.append_nil _).symm rfl
    (by decide)⟩

end IpcFraming
