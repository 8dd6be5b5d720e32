import Mathlib.Data.List.Infix
import Mathlib.Tactic.TypeStar

/-! # Pipes

A pipe has a reader and any number of writers. `produced` is everything that was written to it, of
which the reader has taken the front. A pipe that nobody holds open for writing gets no more, and its
reader sees the end when it has taken everything. -/

namespace GlobalProtect.Lib

structure Pipe (β : Type*) where
  produced : List β := []
  taken : ℕ := 0
  isOpen : Bool := true
  deriving DecidableEq

namespace Pipe

variable {β : Type*} (pipe : Pipe β)

/-- What the reader has taken. -/
def seen : List β := pipe.produced.take pipe.taken

/-- What a reader that asks for `count` bytes is given. -/
def chunk (count : ℕ) : List β := (pipe.produced.drop pipe.taken).take count

/-- The reader sees the end. -/
def atEnd : Bool := !pipe.isOpen && pipe.produced.length ≤ pipe.taken

def write (bytes : List β) : Pipe β := { pipe with produced := pipe.produced ++ bytes }

def close : Pipe β := { pipe with isOpen := false }

def read (count : ℕ) : Pipe β := { pipe with taken := pipe.taken + (pipe.chunk count).length }

/-- No more was taken than was there. -/
def Sound : Prop := pipe.taken ≤ pipe.produced.length

variable {pipe}

theorem seen_prefix : pipe.seen <+: pipe.produced := List.take_prefix _ _

theorem length_seen (h : pipe.Sound) : pipe.seen.length = pipe.taken :=
  List.length_take_of_le h

theorem seen_read (count : ℕ) : (pipe.read count).seen = pipe.seen ++ pipe.chunk count := by
  unfold seen read chunk
  dsimp only
  rw [List.take_add, List.length_take]
  congr 1
  rcases Nat.le_total count (pipe.produced.drop pipe.taken).length with h | h
  · rw [Nat.min_eq_left h]
  · rw [Nat.min_eq_right h, List.take_length, List.take_of_length_le h]

theorem sound_read (h : pipe.Sound) (count : ℕ) : (pipe.read count).Sound := by
  unfold Sound read chunk at *
  dsimp only
  rw [List.length_take, List.length_drop]
  omega

theorem seen_write (h : pipe.Sound) (bytes : List β) : (pipe.write bytes).seen = pipe.seen :=
  List.take_append_of_le_length h

theorem sound_write (h : pipe.Sound) (bytes : List β) : (pipe.write bytes).Sound := by
  unfold Sound write at *
  dsimp only
  rw [List.length_append]
  omega

theorem not_isOpen_of_atEnd (h : pipe.atEnd = true) : ¬pipe.isOpen = true := by
  obtain ⟨hclosed, -⟩ := Bool.and_eq_true_iff.mp h
  exact (Bool.not_eq_true' _).mp hclosed ▸ Bool.false_ne_true

theorem atEnd_close (h : pipe.atEnd = true) : pipe.close.atEnd = true :=
  Bool.and_eq_true_iff.mpr ⟨rfl, (Bool.and_eq_true_iff.mp h).2⟩

theorem seen_of_atEnd (h : pipe.atEnd = true) : pipe.seen = pipe.produced := by
  obtain ⟨-, hlength⟩ := Bool.and_eq_true_iff.mp h
  exact List.take_of_length_le (of_decide_eq_true hlength)

end Pipe

end GlobalProtect.Lib
