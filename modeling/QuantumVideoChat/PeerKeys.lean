/-
Key indices between peers: several `AV`s on one key file, and the frames they send
(`shared/av/namespaces.py`).

A frame is the 4-byte index of the sender's pair followed by the data encrypted under its
key.  Frames stay in the air for ever, so a frame can arrive at any later time.  The send loops
also read `mute_audio` and `debug_video` of the `AV`, which its constructor does not set: they
are taken to be there, with the microphone on.

* `FileAV` — what an `AV` on the key file holds after `n` turns of its rotation thread;
* `accepted_frame_key_iff` — whenever a receiver accepts a frame, its key is the sender's
  exactly when both pairs are first publications, or neither is, or the first two keys of
  the file are the same bytes; `first_frames_disagree` is a run where they are not.
-/
import QuantumVideoChat.KeyRotation

open Protocol Encryption

/-! ### The wire format -/

namespace MediaFrame

/-- `index.to_bytes(4, "big")`, `none` when it raises `OverflowError`. -/
def indexToBytes (index : ℕ) : Option Bytes :=
  if index < 2 ^ 32 then
    some [UInt8.ofNat (index / 2 ^ 24), UInt8.ofNat (index / 2 ^ 16),
      UInt8.ofNat (index / 2 ^ 8), UInt8.ofNat index]
  else none

/-- `int.from_bytes(header, "big")`. -/
def indexFromBytes (header : Bytes) : ℕ := header.foldl (fun n byte => n * 256 + byte.toNat) 0

theorem length_of_indexToBytes {index : ℕ} {header : Bytes}
    (h : indexToBytes index = some header) : header.length = 4 := by
  rw [indexToBytes] at h
  split_ifs at h
  rw [← Option.some_inj.mp h]
  rfl

theorem indexFromBytes_of_indexToBytes {index : ℕ} {header : Bytes}
    (h : indexToBytes index = some header) : indexFromBytes header = index := by
  rw [indexToBytes] at h
  split_ifs at h with hlt
  rw [← Option.some_inj.mp h]
  simp only [indexFromBytes, List.foldl_cons, List.foldl_nil, UInt8.toNat_ofNat']
  omega

end MediaFrame

namespace AV

open MediaFrame

/-- `send_audio` and `send_video` of an `AV` that has `mute_audio` and `debug_video`: the message
for `data`, or `none` when the index no longer fits. -/
def sendMessage (encrypt : Bytes → Bytes → Bytes) (av : AV) (data : Bytes) : Option Bytes :=
  (indexToBytes av.key.1).map fun header => header ++ encrypt data av.key.2

/-- `on_message` up to decryption; `ownMessage` says that the user id is the receiver's. -/
def onMessage {α : Type*} (decrypt : Bytes → Bytes → α) (av : AV) (ownMessage : Bool)
    (msg : Bytes) : Option α :=
  if ownMessage then none
  else if indexFromBytes (msg.take 4) ≠ av.key.1 then none
  else some (decrypt (msg.drop 4) av.key.2)

/-- A message is accepted exactly under the index it was sent with, whatever came later. -/
theorem onMessage_sendMessage {α : Type*} {encrypt : Bytes → Bytes → Bytes} {sender : AV}
    {data msg : Bytes} (h : sender.sendMessage encrypt data = some msg)
    (decrypt : Bytes → Bytes → α) (receiver : AV) :
    receiver.onMessage decrypt false msg
      = if sender.key.1 = receiver.key.1 then
          some (decrypt (encrypt data sender.key.2) receiver.key.2)
        else none := by
  obtain ⟨header, hheader, rfl⟩ := Option.map_eq_some_iff.mp h
  have hlen := length_of_indexToBytes hheader
  -- the header is exactly the four bytes that `on_message` cuts off
  have htake : (header ++ encrypt data sender.key.2).take 4 = header := by
    rw [← hlen, List.take_left]
  have hdrop : (header ++ encrypt data sender.key.2).drop 4 = encrypt data sender.key.2 := by
    rw [← hlen, List.drop_left]
  rw [onMessage, htake, hdrop, indexFromBytes_of_indexToBytes hheader]
  by_cases heq : sender.key.1 = receiver.key.1
  · simp [heq]
  · simp [heq]

/-! ### One AV on the key file -/

/-- The `AV` has turned its loop `n` times.  The constructor and the first turn both
publish index 0, with the file's first and second key. -/
structure FileAV (content : Bytes) (keyLength n : ℕ) (av : AV) : Prop where
  keyGen_eq : av.keyGen = .file (FileKeyGenerator.afterReads content keyLength n)
  key_eq : av.key = (n - 1, FileKeyGenerator.fileKey content (numBytes keyLength) n)
  keyIdx_eq : av.keyIdx = n
  rotating : av.rotating = true
  length_history : av.history.length = n + 1

section File

variable (math : MathFns) {content : Bytes} {keyLength : ℕ} (hk : keyLength ≠ 0)
  (hfit : numBytes keyLength ≤ content.length)

include hk hfit

theorem fileAV_init (draws : KeyDraws) :
    ∃ av, init math content "FILE" keyLength draws = .ok av ∧ FileAV content keyLength 0 av := by
  have hgen : KeyGenerator.generateKey math keyLength draws (.file { content := content })
      = (.file (FileKeyGenerator.afterReads content keyLength 0), none) := by
    rw [KeyGenerator.generateKey, FileKeyGenerator.generateKey_fresh hk hfit]
    rfl
  have hcreate : KeyGenerator.createKeyGenerator content "FILE"
      = .ok (.file { content := content }) := rfl
  refine ⟨_, by rw [init, hcreate]; simp only [hgen]; rfl, ⟨rfl, rfl, rfl, rfl, rfl⟩⟩

theorem fileAV_rotateKeys {n : ℕ} {av : AV} (h : FileAV content keyLength n av)
    (draws : KeyDraws) :
    FileAV content keyLength (n + 1) (av.rotateKeys math keyLength draws) := by
  have hgen : av.keyGen.generateKey math keyLength draws
      = (.file (FileKeyGenerator.afterReads content keyLength (n + 1)), none) := by
    rw [h.keyGen_eq, KeyGenerator.generateKey,
      FileKeyGenerator.generateKey_afterReads hk hfit]
    rfl
  have hstep : av.rotateKeys math keyLength draws =
      { ({ av with keyGen := .file (FileKeyGenerator.afterReads content keyLength (n + 1)) }.publish
          (av.keyIdx, FileKeyGenerator.fileKey content (numBytes keyLength) (n + 1))) with
        keyIdx := av.keyIdx + 1 } := by
    rw [rotateKeys, if_neg (by simp [h.rotating])]
    simp only [hgen]
    rfl
  rw [hstep]
  exact ⟨rfl, by rw [h.keyIdx_eq]; rfl, by rw [h.keyIdx_eq], h.rotating,
    by simp [publish, h.length_history]⟩

theorem fileAV_step {n : ℕ} {av : AV} (h : FileAV content keyLength n av) (a : Action) :
    ∃ n', FileAV content keyLength n' (step math keyLength av a) := by
  cases a with
  | setQberEventCallback =>
    exact ⟨n, h.keyGen_eq, h.key_eq, h.keyIdx_eq, h.rotating, h.length_history⟩
  | rotateKeys draws => exact ⟨n + 1, fileAV_rotateKeys math hk hfit h draws⟩

end File

end AV

/-! ### The peers and the frames in the air -/

namespace PeerKeys

/-- A frame in the air.  Only `msg` is on the wire; the rest remembers its origin: the
sender, the plain data, the pair it read, and how many pairs it had published by then. -/
structure Frame (P : Type*) where
  sender : P
  data : Bytes
  msg : Bytes
  pair : ℕ × Bytes
  published : ℕ
  deriving DecidableEq

structure State (P : Type*) where
  av : P → Option AV := fun _ => none
  frames : List (Frame P) := []

inductive Action (P : Type*)
  | construct (p : P) (draws : KeyDraws)
  | turn (p : P) (a : AV.Action)
  | send (p : P) (data : Bytes)

variable {P : Type*} [DecidableEq P]

/-- The pair `p` holds now. -/
def State.pair (s : State P) (p : P) : Option (ℕ × Bytes) := (s.av p).map fun av => av.key

/-- How many pairs `p` has published. -/
def State.published (s : State P) (p : P) : ℕ := (s.av p).elim 0 fun av => av.history.length

/-- The arrival of a frame at `receiver`: what it decrypts and under which key, when it
accepts the frame. -/
def State.receive (s : State P) (receiver : P) (frame : Frame P) : Option (Bytes × Bytes) :=
  (s.av receiver).bind fun av =>
    av.onMessage Prod.mk (decide (frame.sender = receiver)) frame.msg

def State.setAV (s : State P) (p : P) (av : AV) : State P :=
  { s with av := Function.update s.av p (some av) }

/-- A receipt is not an action: it changes neither the pair nor the generator. -/
def step (math : MathFns) (encrypt : Bytes → Bytes → Bytes) (content : Bytes)
    (keyLength : ℕ) (s : State P) : Action P → State P
  | .construct p draws =>
    match s.av p, AV.init math content "FILE" keyLength draws with
    | none, .ok av => s.setAV p av
    | _, _ => s
  | .turn p a =>
    match s.av p with
    | some av => s.setAV p (AV.step math keyLength av a)
    | none => s
  | .send p data =>
    match s.av p with
    | some av =>
      match av.sendMessage encrypt data with
      | some msg => { s with frames := s.frames ++ [⟨p, data, msg, av.key, av.history.length⟩] }
      -- the index no longer fits in four bytes
      | none => s
    | none => s

variable (math : MathFns) (encrypt : Bytes → Bytes → Bytes) (content : Bytes) (keyLength : ℕ)

/-- The frame was sent by an `AV` on the key file. -/
def Sent (frame : Frame P) : Prop :=
  ∃ n av, AV.FileAV content keyLength n av ∧ av.sendMessage encrypt frame.data = some frame.msg ∧
    frame.pair = av.key ∧ frame.published = av.history.length

structure Inv (s : State P) : Prop where
  av : ∀ p av, s.av p = some av → ∃ n, AV.FileAV content keyLength n av
  frames : ∀ frame ∈ s.frames, Sent encrypt content keyLength frame

theorem inv_setAV {s : State P} (h : Inv encrypt content keyLength s) (p : P) {n : ℕ} {av : AV}
    (hav : AV.FileAV content keyLength n av) : Inv encrypt content keyLength (s.setAV p av) := by
  refine ⟨fun q av' hq => ?_, h.frames⟩
  change Function.update s.av p (some av) q = some av' at hq
  by_cases hqp : q = p
  · subst hqp
    rw [Function.update_self, Option.some_inj] at hq
    exact ⟨n, hq ▸ hav⟩
  · rw [Function.update_of_ne hqp] at hq
    exact h.av q av' hq

variable {content keyLength}

theorem inv_step (hk : keyLength ≠ 0) (hfit : numBytes keyLength ≤ content.length)
    (s : State P) (a : Action P) (h : Inv encrypt content keyLength s) :
    Inv encrypt content keyLength (step math encrypt content keyLength s a) := by
  cases a with
  | construct p draws =>
    obtain ⟨av, hinit, hav⟩ := AV.fileAV_init math hk hfit draws
    rw [step, hinit]
    cases s.av p with
    -- a constructor runs once
    | none => exact inv_setAV encrypt content keyLength h p hav
    | some _ => exact h
  | turn p a =>
    rw [step]
    cases hp : s.av p with
    | none => exact h
    | some av =>
      obtain ⟨n, hav⟩ := h.av p av hp
      obtain ⟨n', hav'⟩ := AV.fileAV_step math hk hfit hav a
      exact inv_setAV encrypt content keyLength h p hav'
  | send p data =>
    rw [step]
    cases hp : s.av p with
    | none => exact h
    | some av =>
      cases hmsg : av.sendMessage encrypt data with
      | none => simpa only [hmsg] using h
      | some msg =>
        obtain ⟨n, hav⟩ := h.av p av hp
        simp only [hmsg]
        refine ⟨h.av, fun frame hframe => ?_⟩
        rcases List.mem_append.mp hframe with hframe | hframe
        · exact h.frames frame hframe
        · rw [List.mem_singleton.mp hframe]
          exact ⟨n, av, hav, hmsg, rfl, rfl⟩

theorem inv_run (hk : keyLength ≠ 0) (hfit : numBytes keyLength ≤ content.length)
    (actions : List (Action P)) :
    Inv encrypt content keyLength (actions.foldl (step math encrypt content keyLength) {}) := by
  refine Transition.foldl_induction ⟨fun p av hp => ?_, fun frame hframe => ?_⟩
    (fun s a h => inv_step math encrypt hk hfit s a h) actions
  · exact absurd hp (by simp)
  · exact absurd hframe (List.not_mem_nil)

/-- **When the index identifies the key.**  In every state of every run, a receiver that
accepts a frame decrypts it with the sender's key exactly when both pairs are first
publications, or neither is, or the first two keys of the file are equal. -/
theorem accepted_frame_key_iff (hk : keyLength ≠ 0)
    (hfit : numBytes keyLength ≤ content.length) (actions : List (Action P)) (s : State P)
    (hs : s = actions.foldl (step math encrypt content keyLength) {}) (frame : Frame P)
    (hframe : frame ∈ s.frames) (receiver : P) (body key : Bytes)
    (haccept : s.receive receiver frame = some (body, key)) :
    s.pair receiver = some (frame.pair.1, key) ∧ body = encrypt frame.data frame.pair.2 ∧
      (key = frame.pair.2 ↔
        (frame.published = 1 ↔ s.published receiver = 1) ∨
          FileKeyGenerator.fileKey content (numBytes keyLength) 0
            = FileKeyGenerator.fileKey content (numBytes keyLength) 1) ∧
      (0 < frame.pair.1 → key = frame.pair.2) := by
  have hinv : Inv encrypt content keyLength s := hs ▸ inv_run math encrypt hk hfit actions
  obtain ⟨n, sender, hsender, hsend, hpair, hpublished⟩ := hinv.frames frame hframe
  obtain ⟨av, hav, haccept⟩ := Option.bind_eq_some_iff.mp haccept
  obtain ⟨m, hreceiver⟩ := hinv.av receiver av hav
  -- a receiver does not accept its own frames
  have hother : decide (frame.sender = receiver) = false := by
    by_contra hself
    rw [AV.onMessage, if_pos (by simpa using hself)] at haccept
    exact absurd haccept (by simp)
  rw [hother, AV.onMessage_sendMessage hsend] at haccept
  split_ifs at haccept with hindex
  obtain ⟨rfl, rfl⟩ := Prod.mk.inj (Option.some_inj.mp haccept)
  rw [State.pair, State.published, hav, hpair, hpublished, hsender.length_history, hindex]
  refine ⟨rfl, rfl, ?_⟩
  rw [← hindex]
  show (av.key.2 = sender.key.2 ↔ (n + 1 = 1 ↔ av.history.length = 1) ∨ _) ∧ _
  rw [hreceiver.length_history]
  rw [hsender.key_eq, hreceiver.key_eq] at hindex ⊢
  dsimp only at hindex ⊢
  -- equal indices: the same publication, or the two that carry index 0
  have hcases : n = m ∨ (n = 0 ∧ m = 1) ∨ (n = 1 ∧ m = 0) := by omega
  rcases hcases with rfl | ⟨rfl, rfl⟩ | ⟨rfl, rfl⟩
  · exact ⟨⟨fun _ => .inl Iff.rfl, fun _ => rfl⟩, fun _ => rfl⟩
  · refine ⟨⟨fun h => .inr h.symm, ?_⟩, fun h => absurd h (by simp)⟩
    rintro (h | h)
    · exact absurd h (by simp)
    · exact h.symm
  · refine ⟨⟨fun h => .inr h, ?_⟩, fun h => absurd h (by simp)⟩
    rintro (h | h)
    · exact absurd h (by simp)
    · exact h

/-- Two keys of one byte each. -/
def twoKeys : Bytes := [1, 2]

/-- Peer `true` sends one frame after `sent` turns, then peer `false` makes `received`. -/
def oneFrame (sent received : ℕ) : List (Action Bool) :=
  [.construct true AV.quietDraws, .construct false AV.quietDraws]
    ++ List.replicate sent (.turn true (.rotateKeys AV.quietDraws)) ++ [.send true [7]]
    ++ List.replicate received (.turn false (.rotateKeys AV.quietDraws))

def twoKeyRun (actions : List (Action Bool)) : State Bool :=
  actions.foldl (step quietMath (fun data key => data ++ key) twoKeys 8) {}

/-- Both peers have turned twice; the frame carries index 1. -/
theorem second_frames_agree :
    (twoKeyRun (oneFrame 2 2)).pair false = some (1, [1]) :=
  (accepted_frame_key_iff quietMath (fun data key => data ++ key) (by decide) (by decide)
    (oneFrame 2 2) (twoKeyRun (oneFrame 2 2)) rfl ⟨true, [7], [0, 0, 0, 1, 7, 1], (1, [1]), 3⟩ (by decide +kernel)
    false [7, 1] [1] (by decide +kernel)).1

/-- The frame carries the constructor's pair, the receiver has made its first turn. -/
theorem first_frames_disagree :
    let s := twoKeyRun (oneFrame 0 1)
    s.frames = [⟨true, [7], [0, 0, 0, 0, 7, 1], (0, [1]), 1⟩] ∧
      ∀ frame ∈ s.frames, s.receive false frame = some ([7, 1], [2]) := by
  decide +kernel

end PeerKeys
