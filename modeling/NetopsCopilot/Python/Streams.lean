import NetopsCopilot.Python.Text
import NetopsCopilot.Lib.Utf8

/-!
# Binary streams (`typing.BinaryIO`, `socket.socket`)

A stream has bytes left to deliver and cuts them as it likes: `read(n)` gives a prefix of them of at most `n`
bytes, which is empty only at the end. It may also raise. A connection is such a stream for what is received,
and counts what has been sent.
-/

namespace NetopsCopilot

abbrev Bytes := List Utf8.Byte

/-- An exception of a stream, as far as the program tells them apart. -/
inductive StreamError where
  | osError
  /-- `ValueError` with its subclass `UnicodeError`. -/
  | valueError
  | other
deriving DecidableEq

/-- The streams of a class, in their states `σ`. -/
structure ByteStream (σ : Type) where
  read : Nat → σ → Except StreamError Bytes × σ
  /-- What closing the stream raises. -/
  close : σ → Option StreamError
  /-- The bytes left to deliver. -/
  remaining : σ → Bytes
  read_ok : ∀ {n : Nat} {s s' : σ} {v : Bytes}, read n s = (.ok v, s') →
    remaining s = v ++ remaining s' ∧ v.length ≤ n ∧ (0 < n → v = [] → remaining s = [])

/-- The connections of a class: `read` is `recv`. -/
structure Connection (κ : Type) extends ByteStream κ where
  sendall : Bytes → κ → Except StreamError Unit × κ
  /-- The bytes sent so far. -/
  sent : κ → Bytes
  read_sent : ∀ {n : Nat} {k k' : κ} {v : Bytes}, read n k = (.ok v, k') → sent k' = sent k
  sendall_ok : ∀ {b : Bytes} {k k' : κ}, sendall b k = (.ok (), k') → sent k' = sent k ++ b

/-- No call raises. -/
structure ByteStream.Reliable {σ : Type} (stream : ByteStream σ) : Prop where
  read : ∀ n s, ∃ v s', stream.read n s = (.ok v, s')
  close : ∀ s, stream.close s = none

/-- No call raises, and the bytes to be received do not depend on those sent. -/
structure Connection.Reliable {κ : Type} (connection : Connection κ) : Prop where
  receives : connection.toByteStream.Reliable
  sends : ∀ b k, ∃ k', connection.sendall b k = (.ok (), k') ∧ connection.remaining k' = connection.remaining k

/-- A `with` block: what closing the stream raises replaces the result of the body. -/
def closing {A : Type} (close : Option StreamError) (body : Except StreamError A) : Except StreamError A :=
  match close with
  | some e => .error e
  | none => body

/-- A text in memory that gives at most `pace + 1` bytes at a time. -/
def ByteStream.paced (pace : Nat) : ByteStream Bytes where
  read n s := (.ok (s.take (min n (pace + 1))), s.drop (min n (pace + 1)))
  close _ := none
  remaining s := s
  read_ok := by
    intro n s s' v h
    obtain ⟨hv, rfl⟩ := Prod.mk.inj h
    obtain rfl := Except.ok.inj hv
    refine ⟨(List.take_append_drop _ s).symm, (List.length_take_le _ s).trans (Nat.min_le_left ..), fun hn hnil => ?_⟩
    rcases List.take_eq_nil_iff.mp hnil with hzero | hnil
    · omega
    · exact hnil

theorem ByteStream.paced_reliable (pace : Nat) : (ByteStream.paced pace).Reliable :=
  ⟨fun _ _ => ⟨_, _, rfl⟩, fun _ => rfl⟩

/-- A connection to a peer that has an answer ready. -/
def Connection.scripted (pace : Nat) : Connection (Bytes × Bytes) where
  read n k := (((ByteStream.paced pace).read n k.2).1, k.1, ((ByteStream.paced pace).read n k.2).2)
  close _ := none
  remaining k := k.2
  read_ok := by
    rintro n ⟨sent, s⟩ ⟨sent', s'⟩ v h
    obtain ⟨hv, hs⟩ := Prod.mk.inj h
    exact (ByteStream.paced pace).read_ok (Prod.ext hv (Prod.mk.inj hs).2)
  sendall b k := (.ok (), k.1 ++ b, k.2)
  sent k := k.1
  read_sent := by
    rintro n ⟨sent, s⟩ ⟨sent', s'⟩ v h
    exact (Prod.mk.inj (Prod.mk.inj h).2).1.symm
  sendall_ok := by
    rintro b ⟨sent, s⟩ ⟨sent', s'⟩ h
    exact (Prod.mk.inj (Prod.mk.inj h).2).1.symm

theorem Connection.scripted_reliable (pace : Nat) : (Connection.scripted pace).Reliable :=
  ⟨⟨fun _ _ => ⟨_, _, rfl⟩, fun _ => rfl⟩, fun _ _ => ⟨_, rfl, rfl⟩⟩

/-- `bytes.strip`'s whitespace. -/
def isAsciiSpace (b : Utf8.Byte) : Bool := b == 32 || (9 ≤ b.val && b.val ≤ 13)

/-- `bytes.strip()`. -/
def stripBytes (bytes : Bytes) : Bytes := (bytes.dropWhile isAsciiSpace).rdropWhile isAsciiSpace

/-- An ASCII literal. -/
def ascii (s : String) : Bytes := s.toList.map fun c => Fin.ofNat 256 c.toNat

end NetopsCopilot
