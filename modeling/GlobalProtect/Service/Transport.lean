import GlobalProtect.Lib.Machine
import GlobalProtect.Lib.Utf8Decode

/-! # The encrypted connection

One direction of `NoiseTransport` in `gpapi/src/service/transport/noise.rs`, after the handshake. The
cipher is a parameter (`Cipher`). Whoever is in between can drop, repeat, reorder and make up frames,
but none that opens. -/

namespace GlobalProtect.Service.Transport

open Lib Lib.Utf8

def maxPlaintext : ℕ := 60 * 1024

def maxWsMessage : ℕ := 65535

def noiseTagSize : ℕ := 16

inductive TransportError where
  | messageTooLarge
  | malformedMessage
  | noise
  | json

/-- What `serde_json` does with the messages of a type. -/
structure Serde (α : Type) where
  toVec : α → Except TransportError Bytes
  fromSlice : Bytes → Except TransportError α
  fromSlice_toVec : ∀ m bytes, toVec m = .ok bytes → fromSlice bytes = .ok m

/-- What `snow` does with the message of a number; a frame opens under its own number only. -/
structure Cipher where
  writeMessage : ℕ → Bytes → Option Bytes
  readMessage : ℕ → Bytes → Option Bytes
  length_write : ∀ n p f, writeMessage n p = some f → f.length = p.length + noiseTagSize
  read_write : ∀ n p f, writeMessage n p = some f → readMessage n f = some p
  read_number : ∀ n p f k q, writeMessage n p = some f → readMessage k f = some q → k = n

variable {α : Type} (c : Serde α) (t : Cipher)

def encode (message : α) : Except TransportError Bytes :=
  match c.toVec message with
  | .error e => .error e
  | .ok encoded => if encoded.length > maxPlaintext then .error .messageTooLarge else .ok encoded

def decode (encoded : Bytes) : Except TransportError α :=
  if encoded.length > maxPlaintext then .error .messageTooLarge else c.fromSlice encoded

def encrypt (number : ℕ) (message : α) : Except TransportError Bytes :=
  match encode c message with
  | .error e => .error e
  | .ok plaintext =>
    match t.writeMessage number plaintext with
    | none => .error .noise
    | some frame => .ok frame

/-- `NoiseTransport::decrypt`, and how many frames have been read then. -/
def decrypt (number : ℕ) (frame : Bytes) : ℕ × Except TransportError α :=
  if frame.length > maxWsMessage then (number, .error .messageTooLarge)
  else if frame.length < noiseTagSize then (number, .error .malformedMessage)
  else
    match t.readMessage number frame with
    | none => (number, .error .noise)
    | some plaintext =>
      (number + 1, if plaintext.length > maxPlaintext then .error .messageTooLarge
        else decode c plaintext)

/-- `sent` and `frames` are what was encrypted so far, `received` and `number` belong to the other
end. -/
structure State (α : Type) where
  sent : List α := []
  frames : List Bytes := []
  received : List α := []
  number : ℕ := 0

inductive Label (α : Type) where
  | encrypt (message : α)
  | deliver (frame : Bytes)

def step (s : State α) : Label α → Option (State α)
  | .encrypt m => some <|
    match encrypt c t s.frames.length m with
    | .error _ => s
    | .ok f => { s with sent := s.sent ++ [m], frames := s.frames ++ [f] }
  | .deliver f =>
    if f ∈ s.frames ∨ t.readMessage s.number f = none then
      some { s with
        number := (decrypt c t s.number f).1
        received := s.received ++ (decrypt c t s.number f).2.toOption.toList }
    else none

def machine : Machine (State α) (Label α) := ⟨{}, step c t⟩

variable {c t} {s s' : State α}

theorem encode_ok {m : α} {p : Bytes} (h : encode c m = .ok p) :
    c.toVec m = .ok p ∧ p.length ≤ maxPlaintext := by
  unfold encode at h
  split at h
  · cases h
  next q hq =>
    split at h
    · cases h
    next hle =>
      cases h
      exact ⟨hq, Nat.not_lt.1 hle⟩

theorem encrypt_ok {n : ℕ} {m : α} {f : Bytes} (h : encrypt c t n m = .ok f) :
    ∃ p, encode c m = .ok p ∧ t.writeMessage n p = some f := by
  unfold encrypt at h
  split at h
  · cases h
  next p hp =>
    split at h
    · cases h
    next g hg =>
      cases h
      exact ⟨p, hp, hg⟩

/-- The longest plaintext fits in a frame. -/
theorem decrypt_encrypt {n : ℕ} {m : α} {f : Bytes} (h : encrypt c t n m = .ok f) :
    decrypt c t n f = (n + 1, .ok m) := by
  obtain ⟨p, hp, hf⟩ := encrypt_ok h
  obtain ⟨hm, hle⟩ := encode_ok hp
  have hlen := t.length_write n p f hf
  have hfits : ¬ f.length > maxWsMessage := by
    unfold maxPlaintext at hle
    unfold noiseTagSize at hlen
    unfold maxWsMessage
    omega
  have htag : ¬ f.length < noiseTagSize := by omega
  simp [decrypt, decode, if_neg hfits, if_neg htag, t.read_write n p f hf, Nat.not_lt.2 hle,
    c.fromSlice_toVec m p hm]

theorem decrypt_none {n : ℕ} {f : Bytes} (h : t.readMessage n f = none) :
    ∃ e, decrypt c t n f = (n, .error e) := by
  unfold decrypt
  rw [h]
  split
  · exact ⟨_, rfl⟩
  · split <;> exact ⟨_, rfl⟩

/-- Every frame has the message that was sent under its number. -/
structure Inv (c : Serde α) (t : Cipher) (s : State α) : Prop where
  length : s.frames.length = s.sent.length
  sealed : ∀ (n : ℕ) f, s.frames[n]? = some f → ∃ m, s.sent[n]? = some m ∧ encrypt c t n m = .ok f
  received : s.received = s.sent.take s.number
  number : s.number ≤ s.sent.length

theorem Inv.decrypt (h : Inv c t s) {f p : Bytes} (hf : f ∈ s.frames)
    (hread : t.readMessage s.number f = some p) :
    ∃ m, s.sent[s.number]? = some m ∧ decrypt c t s.number f = (s.number + 1, .ok m) := by
  obtain ⟨n, hn⟩ := List.getElem?_of_mem hf
  obtain ⟨m, hm, henc⟩ := h.sealed n f hn
  obtain ⟨q, -, hwrite⟩ := encrypt_ok henc
  have hn : s.number = n := t.read_number n q f s.number p hwrite hread
  exact ⟨m, hn ▸ hm, hn ▸ decrypt_encrypt henc⟩

theorem Inv.step {l : Label α} (h : Inv c t s) (hs : step c t s l = some s') : Inv c t s' := by
  cases l with
  | encrypt m =>
    cases hs
    split
    · exact h
    next f hf =>
      have hlast : (s.sent ++ [m])[s.frames.length]? = some m := by simp [h.length]
      refine ⟨by simp [h.length], fun n g hg => ?_, ?_, ?_⟩
      · by_cases hn : n < s.frames.length
        · obtain ⟨m', hm', henc⟩ := h.sealed n g (List.getElem?_append_left hn ▸ hg)
          exact ⟨m', by grind, henc⟩
        · obtain ⟨rfl, rfl⟩ : n = s.frames.length ∧ f = g := by grind
          exact ⟨m, hlast, hf⟩
      · exact h.received.trans (List.take_append_of_le_length h.number).symm
      · exact h.number.trans (by simp)
  | deliver f =>
    obtain ⟨hf, hs⟩ := Option.ite_none_right_eq_some.1 hs
    cases hs
    cases hread : t.readMessage s.number f with
    | none =>
      obtain ⟨e, he⟩ := decrypt_none (c := c) hread
      rw [he]
      exact { h with received := (List.append_nil _).trans h.received }
    | some p =>
      obtain ⟨m, hm, hdec⟩ := h.decrypt (hf.resolve_right (by simp [hread])) hread
      rw [hdec]
      refine ⟨h.length, h.sealed, ?_, (List.getElem?_eq_some_iff.1 hm).1⟩
      simp [List.take_add_one, hm, h.received, Except.toOption]

/-- **What arrives is what was sent**, in that order, and the frame whose turn it is arrives. -/
theorem received_in_order (h : (machine c t).Reachable s) :
    s.received = s.sent.take s.number ∧ s.number ≤ s.sent.length ∧
      (∀ f ∈ s.frames, ∀ p, t.readMessage s.number f = some p →
        ∃ m, s.sent[s.number]? = some m ∧ decrypt c t s.number f = (s.number + 1, .ok m)) ∧
      ∀ f, s.frames[s.number]? = some f → ∃ p, t.readMessage s.number f = some p := by
  have hinv : Inv c t s := h.invariant ⟨rfl, by simp [machine], rfl, Nat.zero_le _⟩
    fun _ _ _ _ h hs => h.step hs
  refine ⟨hinv.received, hinv.number, fun f hf p => hinv.decrypt hf, fun f hf => ?_⟩
  obtain ⟨m, -, henc⟩ := hinv.sealed _ f hf
  obtain ⟨p, -, hwrite⟩ := encrypt_ok henc
  exact ⟨p, t.read_write _ p f hwrite⟩

/-- A tag that is the number, for 256 frames. -/
def numbered : Cipher where
  writeMessage n p := if n < 256 then some (List.replicate 15 0 ++ UInt8.ofNat n :: p) else none
  readMessage n f :=
    if n < 256 ∧ f.take 16 = List.replicate 15 0 ++ [UInt8.ofNat n] then some (f.drop 16) else none
  length_write n p f h := by
    obtain ⟨-, rfl⟩ := Option.ite_some_none_eq_some.1 h
    simp [noiseTagSize]
  read_write n p f h := by
    obtain ⟨hn, rfl⟩ := Option.ite_some_none_eq_some.1 h
    simp [hn]
  read_number n p f k q h hread := by
    obtain ⟨hn, rfl⟩ := Option.ite_some_none_eq_some.1 h
    obtain ⟨⟨hk, htag⟩, -⟩ := Option.ite_some_none_eq_some.1 hread
    have heq : UInt8.ofNat n = UInt8.ofNat k := by simpa using htag
    have := congrArg UInt8.toNat heq
    simp only [UInt8.toNat_ofNat'] at this
    omega

/-- A frame arrives twice, and is refused the second time; the next one is its message. -/
theorem received_in_order_repeated :
    ∃ s, (machine ⟨Except.ok, .ok, fun _ _ h => h ▸ rfl⟩ numbered).Reachable s ∧ s.number = 1 ∧
      s.received = s.sent.take s.number ∧
      ∃ m, s.sent[s.number]? = some m ∧
        (decrypt ⟨Except.ok, .ok, fun _ _ h => h ▸ rfl⟩ numbered 1
          (List.replicate 15 0 ++ [1, 2])).2 = .ok m := by
  have h : (machine ⟨Except.ok, .ok, fun _ _ h => h ▸ rfl⟩ numbered).Reachable _ :=
    ⟨[.encrypt [1], .encrypt [2], .deliver (List.replicate 15 0 ++ [0, 1]),
      .deliver (List.replicate 15 0 ++ [0, 1])], rfl⟩
  obtain ⟨hreceived, -, hnext, hopens⟩ := received_in_order h
  obtain ⟨p, hp⟩ := hopens (List.replicate 15 0 ++ [1, 2]) rfl
  obtain ⟨m, hm, hdec⟩ := hnext _ (by decide) p hp
  exact ⟨_, h, rfl, hreceived, m, hm, congrArg Prod.snd hdec⟩

end GlobalProtect.Service.Transport
