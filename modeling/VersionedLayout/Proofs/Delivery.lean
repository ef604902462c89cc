import Mathlib.Data.List.Basic
import VersionedLayout.Header.Delivery
set_option autoImplicit false

/-!
# Deliveries are all or nothing

A delivery touches its destination only with the whole header at hand. When the header cannot be
generated, a sink takes nothing and a place stays as it is. Otherwise the bytes of the header are
offered in portions, and how the sink chooses them does not matter: a sink takes the beginning of
the header as far as its room goes, and the delivery succeeds exactly if that is all of it. A file
on a device that never refuses holds the header alone, whatever it held before.

## Main definitions

* `VersionedLayout.Header.Sink.HasRoom`, `VersionedLayout.Header.Sink.NeverRefuses` — sinks by what
  they take in all.
* `VersionedLayout.Header.AllOrNothing` — what deliveries do to their destinations.

## Main results

* `VersionedLayout.Header.Sink.writeAll_of_hasRoom`,
  `VersionedLayout.Header.Sink.writeAll_of_neverRefuses` — what a sink has taken when it has been
  offered everything.
* `VersionedLayout.Header.deliveries_all_or_nothing` — deliveries to sinks and to files.
-/

namespace VersionedLayout

namespace Header

namespace Sink

/-! ## Sinks by what they take -/

/-- The sink takes `room` bytes in all, in whatever portions, and then refuses. -/
structure HasRoom (s : Sink) (room : Nat) : Prop where
  /-- As long as there is room it takes some of the bytes, but not more than it has room for. -/
  takes : ∀ {taken offered : Nat}, taken < room → 0 < offered →
    0 < s.portion taken offered ∧ taken + s.portion taken offered ≤ room
  /-- Without room it takes nothing. -/
  refuses : ∀ {taken : Nat} (offered : Nat), room ≤ taken → s.portion taken offered = 0

/-- The sink always takes some of the bytes. -/
def NeverRefuses (s : Sink) : Prop :=
  ∀ taken offered, 0 < offered → 0 < s.portion taken offered

/-- The sink of limited room has this room. -/
lemma hasRoom_ofRoom (room : Nat) : (ofRoom room).HasRoom room where
  takes {taken offered} htaken hoffered := by
    simp only [ofRoom]
    omega
  refuses {taken} offered htaken := by
    simp only [ofRoom]
    omega

/-- The unlimited sink never refuses. -/
lemma neverRefuses_unlimited : unlimited.NeverRefuses :=
  fun _ _ h => h

variable {s : Sink}

/-- **A sink with room takes the beginning** of what it is offered, as far as its room goes, and all
of it exactly if the room is large enough.

**Proof sketch.** Induction on the calls. A call that is refused finds no room. Any other call takes
a portion for which there is room, and what is behind the portion is offered with that much less
room. -/
theorem writeAll_of_hasRoom {room : Nat} (hroom : s.HasRoom room) {taken : List UInt8}
    (htaken : taken.length ≤ room) (bytes : List UInt8) : s.writeAll taken bytes =
      (taken ++ bytes.take (room - taken.length),
        decide (taken.length + bytes.length ≤ room)) := by
  fun_induction s.writeAll taken bytes with
  | case1 taken =>
    rw [List.take_nil, List.append_nil, List.length_nil, Nat.add_zero, decide_eq_true htaken]
  | case2 taken b bs hportion =>
    have hfull : room = taken.length := by
      by_contra hne
      have hpos : 0 < s.portion taken.length (bs.length + 1) :=
        (hroom.takes (by omega) (by omega)).1
      omega
    have hrefused : ¬ taken.length + (b :: bs).length ≤ taken.length := by
      rw [List.length_cons]
      omega
    rw [hfull, Nat.sub_self, List.take_zero, List.append_nil, decide_eq_false hrefused]
  | case3 taken b bs n hportion ih =>
    have hlt : taken.length < room := by
      by_contra hge
      have hzero := hroom.refuses (bs.length + 1) (Nat.le_of_not_lt hge)
      omega
    have hle : taken.length + s.portion taken.length (bs.length + 1) ≤ room :=
      (hroom.takes hlt (by omega)).2
    have hoffered := s.portion_le taken.length (bs.length + 1)
    have htaken' : (taken ++ b :: bs.take n).length = taken.length + (n + 1) := by
      rw [List.length_append, List.length_cons, List.length_take_of_le (by omega)]
    have htake : bs.take n ++ (bs.drop n).take (room - (taken.length + (n + 1))) =
        bs.take (room - taken.length - 1) := by
      rw [← List.take_add]
      congr 1
      omega
    have hleft : room - taken.length = room - taken.length - 1 + 1 := by omega
    have hfits : taken.length + (n + 1) + (bs.length - n) ≤ room ↔
        taken.length + (b :: bs).length ≤ room := by
      rw [List.length_cons]
      omega
    rw [ih (by omega), htaken', List.length_drop, List.append_assoc, List.cons_append, htake,
      decide_eq_decide.2 hfits]
    conv_rhs => rw [hleft, List.take_succ_cons]

/-- A sink that never refuses takes everything. -/
theorem writeAll_of_neverRefuses (h : s.NeverRefuses) (taken bytes : List UInt8) :
    s.writeAll taken bytes = (taken ++ bytes, true) := by
  fun_induction s.writeAll taken bytes with
  | case1 taken => rw [List.append_nil]
  | case2 taken b bs hportion =>
    have hpos : 0 < s.portion taken.length (bs.length + 1) := h _ _ (by omega)
    omega
  | case3 taken b bs n hportion ih =>
    rw [ih, List.append_assoc, List.cons_append, List.take_append_drop]

end Sink

/-! ## Deliveries -/

/-- What deliveries of the header of a schema do to their destinations. -/
structure AllOrNothing (c : Config) (ds : List StructDecl) : Prop where
  /-- A header that cannot be generated leaves no byte in any sink. -/
  sink_of_error : ∀ e, generate c ds = .error e → ∀ s, deliver c ds s = ([], .error (.schema e))
  /-- It leaves every place as it is, with the content of the file or without the file. -/
  place_of_error : ∀ e, generate c ds = .error e → ∀ device place,
    store c ds device place = (place, .error (.schema e))
  /-- A sink with room takes the beginning of the header as far as its room goes. -/
  taken_of_ok : ∀ text, generate c ds = .ok text → ∀ s room, s.HasRoom room →
    (deliver c ds s).1 = (utf8Bytes text).take (min room text.utf8ByteSize)
  /-- The delivery succeeds exactly if the room is large enough, and otherwise the sink was full. -/
  success_of_ok : ∀ text, generate c ds = .ok text → ∀ s room, s.HasRoom room →
    (deliver c ds s).2 = if text.utf8ByteSize ≤ room then .ok () else .error .sinkFull
  /-- A file in an existing directory holds exactly the header, whatever it held before. -/
  file_of_ok : ∀ text, generate c ds = .ok text → ∀ device, device.NeverRefuses → ∀ old,
    store c ds device (.directory old) = (.directory (some (utf8Bytes text)), .ok ())
  /-- Without the directory nothing is created. -/
  missing_of_ok : ∀ text, generate c ds = .ok text → ∀ device,
    store c ds device .missing = (.missing, .error .missingDirectory)
  /-- A writer of limited room gets no byte of a header that cannot be generated. -/
  writeTo_of_error : ∀ e, generate c ds = .error e → ∀ room,
    writeTo c ds room = ([], .error (.schema e))
  /-- It gets the first bytes of any other header, as many as it has room for, and the write
  succeeds exactly if these are all. -/
  writeTo_of_ok : ∀ text, generate c ds = .ok text → ∀ room,
    writeTo c ds room = (text.toUTF8.data.toList.take (min room text.utf8ByteSize),
      if text.utf8ByteSize ≤ room then .ok () else .error .sinkFull)
  /-- A file is left as it is by a header that cannot be generated, and so is its absence. -/
  writeToFile_of_error : ∀ e, generate c ds = .error e → ∀ place,
    writeToFile c ds place = (place, .error (.schema e))
  /-- In an existing directory, the bytes of the header replace what was in the file. -/
  writeToFile_of_ok : ∀ text, generate c ds = .ok text → ∀ old,
    writeToFile c ds (.directory old) = (.directory (some text.toUTF8.data.toList), .ok ())
  /-- Read back, the file holds exactly the text of the header. -/
  content_of_ok : ∀ text, generate c ds = .ok text → ∀ old,
    (writeToFile c ds (.directory old)).1.content = some text
  /-- Without the directory the file is not created. -/
  writeToFile_missing_of_ok : ∀ text, generate c ds = .ok text →
    writeToFile c ds .missing = (.missing, .error .missingDirectory)

/-- A file with the bytes of a text is read back as the text. -/
lemma content_utf8Bytes (text : String) :
    (FilePlace.directory (some (utf8Bytes text))).content = some text := by
  simp only [FilePlace.content, Option.bind_some, utf8Bytes, String.fromUTF8?]
  exact dif_pos text.isValidUTF8

/-- The bytes of a text are as many as its size in UTF-8. -/
lemma length_utf8Bytes (text : String) : (utf8Bytes text).length = text.utf8ByteSize :=
  rfl

variable {c : Config} {ds : List StructDecl} {text : String}

/-- The bytes that fit into some room are those at the front, as many as fit. -/
lemma take_utf8Bytes (text : String) (room : Nat) :
    (utf8Bytes text).take room = (utf8Bytes text).take (min room text.utf8ByteSize) := by
  rw [← length_utf8Bytes, ← List.take_take, List.take_length]

/-- A sink gets nothing of a header that cannot be generated. -/
lemma deliver_of_error {e : SchemaError} (h : generate c ds = .error e) (s : Sink) :
    deliver c ds s = ([], .error (.schema e)) := by
  rw [deliver, h]

/-- A place is left as it is by a header that cannot be generated. -/
lemma store_of_error {e : SchemaError} (h : generate c ds = .error e) (device : Sink)
    (place : FilePlace) : store c ds device place = (place, .error (.schema e)) := by
  rw [store, h]

/-- Without its directory a file is not created. -/
lemma store_missing_of_ok (h : generate c ds = .ok text) (device : Sink) :
    store c ds device .missing = (.missing, .error .missingDirectory) := by
  rw [store, h]
  rfl

/-- A sink takes of a header what it has room for, and delivery succeeds if that is all of it. -/
lemma deliver_of_ok {s : Sink} {room : Nat} (h : generate c ds = .ok text)
    (hroom : s.HasRoom room) :
    deliver c ds s = ((utf8Bytes text).take room,
      if text.utf8ByteSize ≤ room then .ok () else .error .sinkFull) := by
  have hstart : ([] : List UInt8).length ≤ room := Nat.zero_le room
  have hwrite := Sink.writeAll_of_hasRoom hroom hstart (utf8Bytes text)
  rw [List.nil_append, List.length_nil, Nat.sub_zero, Nat.zero_add, length_utf8Bytes] at hwrite
  rw [deliver, h]
  dsimp only
  rw [hwrite]
  simp only [decide_eq_true_eq]

/-- A file on a device that never refuses holds the header, whatever it held before. -/
lemma store_of_ok {device : Sink} (h : generate c ds = .ok text) (hdevice : device.NeverRefuses)
    (old : Option (List UInt8)) :
    store c ds device (.directory old) = (.directory (some (utf8Bytes text)), .ok ()) := by
  rw [store, h]
  dsimp only [FilePlace.create]
  rw [Sink.writeAll_of_neverRefuses hdevice]
  rfl

/-- **Deliveries are all or nothing** with respect to the generation of the header. This is said for
sinks and devices that choose the portions as they like, and for the writer of limited room and the
file of the running program, which are among them.

**Proof sketch.** A header that cannot be generated ends the delivery before the destination is
touched. Otherwise the calls follow one another until the sink has everything or refuses, and by
then a sink with room has taken the beginning of what it was offered. A file is emptied first, so
that it holds what its device takes, and a device that never refuses takes everything. -/
theorem deliveries_all_or_nothing (c : Config) (ds : List StructDecl) :
    AllOrNothing c ds ∧ (∀ room, (Sink.ofRoom room).HasRoom room) ∧
      Sink.unlimited.NeverRefuses := by
  refine ⟨?_, Sink.hasRoom_ofRoom, Sink.neverRefuses_unlimited⟩
  constructor
  case sink_of_error =>
    intro e h
    exact deliver_of_error h
  case place_of_error =>
    intro e h
    exact store_of_error h
  case taken_of_ok =>
    intro text h s room hroom
    rw [deliver_of_ok h hroom, take_utf8Bytes]
  case success_of_ok =>
    intro text h s room hroom
    rw [deliver_of_ok h hroom]
  case file_of_ok =>
    intro text h device hdevice old
    exact store_of_ok h hdevice old
  case missing_of_ok =>
    intro text h
    exact store_missing_of_ok h
  case writeTo_of_error =>
    intro e h room
    exact deliver_of_error h _
  case writeTo_of_ok =>
    intro text h room
    rw [writeTo, deliver_of_ok h (Sink.hasRoom_ofRoom room), take_utf8Bytes]
    rfl
  case writeToFile_of_error =>
    intro e h place
    exact store_of_error h _ place
  case writeToFile_of_ok =>
    intro text h old
    exact store_of_ok h Sink.neverRefuses_unlimited old
  case content_of_ok =>
    intro text h old
    rw [writeToFile, store_of_ok h Sink.neverRefuses_unlimited]
    exact content_utf8Bytes text
  case writeToFile_missing_of_ok =>
    intro text h
    exact store_missing_of_ok h _

end Header

end VersionedLayout
