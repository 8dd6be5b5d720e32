import Mathlib.Data.List.Infix
import Mathlib.Tactic.TypeStar

/-! # Archives that are read from the front

An archive is a stream of entries: a header, the bytes of the entry, and padding up to a whole number
of blocks. How headers are decoded is left open, but for one thing: a header is decided by the bytes
it consists of, so that bytes after it do not change it.

`FirstEntry` says which entry is the first with a property. It is found by reading the front of the
archive only (`FirstEntry.of_prefix`). -/

namespace GlobalProtect.Lib.Archive

/-- What is at the front of a stream. -/
inductive Header (η : Type*) where
  /-- A header that takes that many bytes. -/
  | entry (e : η) (length : ℕ)
  | finished
  | failed
  deriving DecidableEq

structure Format (β η : Type*) where
  header : List β → Header η
  size : η → ℕ
  header_append : ∀ {s : List β} {e : η} {n : ℕ} (t : List β),
    header s = .entry e n → header (s ++ t) = .entry e n

variable {β η : Type*}

/-- A number of bytes in whole blocks. -/
def padded (size : ℕ) : ℕ := (size + 511) / 512 * 512

/-- The bytes of an entry, where the stream has them. -/
def Format.data (F : Format β η) (e : η) (n : ℕ) (s : List β) : List β := (s.drop n).take (F.size e)

/-- Where the next header begins. -/
def Format.skip (F : Format β η) (e : η) (n : ℕ) : ℕ := n + padded (F.size e)

/-- The first entry of the stream with the property, and its bytes. -/
inductive FirstEntry (F : Format β η) (p : η → Bool) : List β → η → List β → Prop where
  | here {s : List β} {e : η} {n : ℕ} (hheader : F.header s = .entry e n) (hp : p e = true)
    (hsize : (F.data e n s).length = F.size e) : FirstEntry F p s e (F.data e n s)
  | next {s : List β} {e e' : η} {n : ℕ} {data : List β} (hheader : F.header s = .entry e' n)
    (hp : p e' = false) (hskip : F.skip e' n ≤ s.length)
    (h : FirstEntry F p (s.drop (F.skip e' n)) e data) : FirstEntry F p s e data

namespace FirstEntry

variable {F : Format β η} {p : η → Bool} {s s' : List β} {e : η} {data : List β}

theorem length_eq (h : FirstEntry F p s e data) : data.length = F.size e := by
  induction h with
  | here _ _ hsize => exact hsize
  | next _ _ _ _ ih => exact ih

theorem append (h : FirstEntry F p s e data) (t : List β) : FirstEntry F p (s ++ t) e data := by
  induction h with
  | @here s e n hheader hp hsize =>
    have hdata : F.data e n (s ++ t) = F.data e n s := by
      unfold Format.data at hsize ⊢
      have hlength : F.size e ≤ (s.drop n).length := by
        rw [List.length_take] at hsize
        omega
      rw [List.drop_append, List.take_append_of_le_length hlength]
    rw [← hdata]
    exact .here (F.header_append t hheader) hp (hdata ▸ hsize)
  | @next s e e' n data hheader hp hskip _ ih =>
    refine .next (F.header_append t hheader) hp (hskip.trans (by simp)) ?_
    rw [List.drop_append_of_le_length hskip]
    exact ih

theorem of_prefix (h : FirstEntry F p s e data) (hs : s <+: s') : FirstEntry F p s' e data := by
  obtain ⟨t, rfl⟩ := hs
  exact h.append t

end FirstEntry

end GlobalProtect.Lib.Archive
