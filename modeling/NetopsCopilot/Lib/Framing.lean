import Mathlib.Algebra.GroupWithZero.Nat
import Mathlib.Data.List.Basic

/-!
# Length-prefixed framing

A stream is sent in chunks, each behind its length in a fixed number of bytes, and ends with a length of zero.
`unframe` reads one byte sequence of this form and gives back the stream, however it was cut (`unframe_frames`).
-/

namespace Framing

abbrev Octet := Fin 256

instance neZeroOctet : NeZero 256 := ⟨by decide⟩

/-! ### Lengths -/

/-- `n` in `width` bytes, the most significant first. -/
def bigEndian : Nat → Nat → List Octet
  | 0, _ => []
  | width + 1, n => bigEndian width (n / 256) ++ [Fin.ofNat 256 n]

def readBigEndian (bytes : List Octet) : Nat := bytes.foldl (fun n b => 256 * n + b.val) 0

@[simp] theorem length_bigEndian (width n : Nat) : (bigEndian width n).length = width := by
  induction width generalizing n with
  | zero => rfl
  | succ width ih => rw [bigEndian, List.length_append, ih, List.length_singleton]

theorem readBigEndian_bigEndian {width n : Nat} (hn : n < 256 ^ width) :
    readBigEndian (bigEndian width n) = n := by
  induction width generalizing n with
  | zero =>
    have hzero : n = 0 := by simpa using hn
    rw [hzero]
    rfl
  | succ width ih =>
    have hdiv : n / 256 < 256 ^ width := by
      rw [Nat.div_lt_iff_lt_mul (by decide), ← Nat.pow_succ]
      exact hn
    unfold readBigEndian at ih ⊢
    rw [bigEndian, List.foldl_append, ih hdiv]
    show 256 * (n / 256) + n % 256 = n
    exact Nat.div_add_mod n 256

/-! ### Frames -/

/-- A chunk behind its length. -/
def frame (width : Nat) (chunk : List Octet) : List Octet := bigEndian width chunk.length ++ chunk

/-- The chunks and the length of zero. -/
def frames (width : Nat) (chunks : List (List Octet)) : List Octet :=
  chunks.flatMap (frame width) ++ bigEndian width 0

/-- The stream of at most `fuel` frames. -/
def unframeFrom (width : Nat) : Nat → List Octet → Option (List Octet)
  | 0, _ => none
  | fuel + 1, bytes =>
    let size := readBigEndian (bytes.take width)
    let rest := bytes.drop width
    if bytes.length < width then none
    else if size = 0 then if rest = [] then some [] else none
    else if rest.length < size then none
    else (unframeFrom width fuel (rest.drop size)).map (rest.take size ++ ·)

/-- The stream that a byte sequence frames. -/
def unframe (width : Nat) (bytes : List Octet) : Option (List Octet) :=
  unframeFrom width (bytes.length + 1) bytes

/-- A chunk that can be framed. -/
def Fits (width : Nat) (chunk : List Octet) : Prop := chunk ≠ [] ∧ chunk.length < 256 ^ width

theorem unframeFrom_frames {width fuel : Nat} {chunks : List (List Octet)}
    (hchunks : ∀ chunk ∈ chunks, Fits width chunk) (hfuel : chunks.length < fuel) :
    unframeFrom width fuel (frames width chunks) = some chunks.flatten := by
  induction chunks generalizing fuel with
  | nil =>
    obtain ⟨fuel, rfl⟩ : ∃ fuel', fuel = fuel' + 1 := ⟨fuel - 1, by simp at hfuel; omega⟩
    have htake : (frames width []).take width = bigEndian width 0 := by
      exact List.take_of_length_le (by simp [frames])
    have hdrop : (frames width []).drop width = [] := List.drop_of_length_le (by simp [frames])
    have hread : readBigEndian (bigEndian width 0) = 0 := readBigEndian_bigEndian (Nat.pow_pos (by decide))
    rw [unframeFrom, htake, hdrop, hread, if_neg (by simp [frames]), if_pos rfl, if_pos rfl]
    rfl
  | cons chunk chunks ih =>
    obtain ⟨⟨hne, hlt⟩, hchunks⟩ := List.forall_mem_cons.mp hchunks
    obtain ⟨fuel, rfl⟩ : ∃ fuel', fuel = fuel' + 1 := ⟨fuel - 1, by simp at hfuel; omega⟩
    have hbytes : frames width (chunk :: chunks) =
        bigEndian width chunk.length ++ (chunk ++ frames width chunks) := by
      unfold frames frame
      simp only [List.flatMap_cons, List.append_assoc]
    have htake : (frames width (chunk :: chunks)).take width = bigEndian width chunk.length := by
      rw [hbytes]
      exact List.take_left' (length_bigEndian width _)
    have hdrop : (frames width (chunk :: chunks)).drop width = chunk ++ frames width chunks := by
      rw [hbytes]
      exact List.drop_left' (length_bigEndian width _)
    have hpos : chunk.length ≠ 0 := fun h => hne (List.length_eq_zero_iff.mp h)
    rw [unframeFrom, htake, hdrop, readBigEndian_bigEndian hlt, if_neg (by simp [hbytes]), if_neg hpos,
      if_neg (by simp), List.drop_left, List.take_left, ih hchunks (by simpa using hfuel)]
    rfl

/-- The stream is read back, however it was cut. -/
theorem unframe_frames {width : Nat} {chunks : List (List Octet)}
    (hchunks : ∀ chunk ∈ chunks, Fits width chunk) : unframe width (frames width chunks) = some chunks.flatten := by
  apply unframeFrom_frames hchunks
  have hlength : chunks.length ≤ (chunks.flatMap (frame width)).length := by
    rw [List.length_flatMap]
    induction chunks with
    | nil => exact Nat.le_refl 0
    | cons chunk chunks ih =>
      obtain ⟨⟨hne, -⟩, hchunks⟩ := List.forall_mem_cons.mp hchunks
      have hpos := List.length_pos_iff.mpr hne
      have hrest := ih hchunks
      rw [List.map_cons, List.sum_cons, List.length_cons, frame, List.length_append]
      omega
  rw [frames, List.length_append]
  omega

end Framing
