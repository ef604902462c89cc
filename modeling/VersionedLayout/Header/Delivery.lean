import VersionedLayout.Header.File
set_option autoImplicit false

/-!
# Delivering a header

A header is handed to a sink, or stored in a file. It is generated as a whole first: when that
fails, the destination is not touched. The bytes of the text are then offered to the destination,
which may take them in portions and may refuse the rest. A file is emptied before its new content is
written.

## Main definitions

* `VersionedLayout.Header.Sink` — a destination of bytes.
* `VersionedLayout.Header.Sink.writeAll` — the calls that offer it bytes until it has all of them or
  refuses.
* `VersionedLayout.Header.deliver`, `VersionedLayout.Header.writeTo` — delivery to a sink, and to
  one of limited room.
* `VersionedLayout.Header.FilePlace` — the place of a file.
* `VersionedLayout.Header.store`, `VersionedLayout.Header.writeToFile` — delivery to a file.
-/

namespace VersionedLayout

namespace Header

/-- Why a header was not delivered. -/
inductive DeliveryError where
  /-- The header could not be generated. -/
  | schema (e : SchemaError)
  /-- The destination had too little room. -/
  | sinkFull
  /-- The directory of the file does not exist. -/
  | missingDirectory
  deriving DecidableEq, Repr

/-- The wording of an error. -/
def DeliveryError.message : DeliveryError → String
  | schema e => e.message
  | sinkFull => "could not write generated code: sink full"
  | missingDirectory => "could not write generated code: no such directory"

/-- The bytes of a text in UTF-8. -/
def utf8Bytes (text : String) : List UInt8 :=
  text.toUTF8.data.toList

/-! ## Sinks -/

/-- A destination of bytes. A call offers it bytes, of which it takes some at the front; with none
of them it refuses. How many they are may depend on how many it has taken before. -/
structure Sink where
  /-- How many of `offered` bytes a call takes behind the `taken` bytes before. -/
  portion (taken offered : Nat) : Nat
  /-- No more bytes are taken than offered. -/
  portion_le : ∀ taken offered, portion taken offered ≤ offered

namespace Sink

/-- The sink that takes what it is offered as long as it has room, for `room` bytes in all. -/
def ofRoom (room : Nat) : Sink where
  portion taken offered := min offered (room - taken)
  portion_le _ _ := Nat.min_le_left _ _

/-- The sink that takes whatever it is offered. -/
def unlimited : Sink where
  portion _ offered := offered
  portion_le _ _ := Nat.le_refl _

variable (s : Sink)

/-- Offers bytes to a sink, which has taken some before, until it has all of them or refuses: the
bytes that it has taken then, and whether it has all. What is left of a portion is offered again. -/
def writeAll (taken bytes : List UInt8) : List UInt8 × Bool :=
  match bytes with
  | [] => (taken, true)
  | b :: bs =>
    match _h : s.portion taken.length (bs.length + 1) with
    | 0 => (taken, false)
    | n + 1 => writeAll (taken ++ b :: bs.take n) (bs.drop n)
  termination_by bytes.length
  decreasing_by
    simp only [List.length_drop, List.length_cons]
    omega

end Sink

/-- Delivery to a sink: the bytes that the sink has taken, and whether it has taken all of them. -/
def deliver (c : Config) (ds : List StructDecl) (s : Sink) :
    List UInt8 × Except DeliveryError Unit :=
  match generate c ds with
  | .ok text =>
    let (taken, complete) := s.writeAll [] (utf8Bytes text)
    (taken, if complete then .ok () else .error .sinkFull)
  | .error e => ([], .error (.schema e))

/-- Delivery to a sink that takes `room` bytes and then refuses. -/
def writeTo (c : Config) (ds : List StructDecl) (room : Nat) :
    List UInt8 × Except DeliveryError Unit :=
  deliver c ds (.ofRoom room)

/-! ## Files -/

/-- The place of a file. -/
inductive FilePlace where
  /-- The directory does not exist. -/
  | missing
  /-- The directory exists, and the file may exist with a content. -/
  | directory (file : Option (List UInt8))
  deriving DecidableEq, Repr

namespace FilePlace

/-- The place in an existing directory of a file that may exist with a text. -/
def present (content : Option String) : FilePlace :=
  directory (content.map utf8Bytes)

/-- The text of the file at a place, if there is a file and its content is a text. -/
def content : FilePlace → Option String
  | missing => none
  | directory file => file.bind fun bytes => String.fromUTF8? ⟨bytes.toArray⟩

/-- Opens the file at a place, which is created if it does not exist and emptied if it does. -/
def create : FilePlace → Except DeliveryError FilePlace
  | missing => .error .missingDirectory
  | directory _ => .ok (directory (some []))

/-- Puts bytes behind the content of the file at a place. -/
def append (bytes : List UInt8) : FilePlace → FilePlace
  | directory (some content) => directory (some (content ++ bytes))
  | place => place

end FilePlace

/-- Delivery to a file, whose device takes bytes like the given sink: the place afterwards, and
whether the file was written. -/
def store (c : Config) (ds : List StructDecl) (device : Sink) (place : FilePlace) :
    FilePlace × Except DeliveryError Unit :=
  match generate c ds with
  | .ok text =>
    match place.create with
    | .ok opened =>
      let (taken, complete) := device.writeAll [] (utf8Bytes text)
      (opened.append taken, if complete then .ok () else .error .sinkFull)
    | .error e => (place, .error e)
  | .error e => (place, .error (.schema e))

/-- Delivery to a file on a device that takes whatever it is offered. -/
def writeToFile (c : Config) (ds : List StructDecl) (place : FilePlace) :
    FilePlace × Except DeliveryError Unit :=
  store c ds .unlimited place

end Header

end VersionedLayout
