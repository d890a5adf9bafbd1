import CilGraph.Proofs.Bytes.LittleEndian
import CilGraph.Proofs.Image.Lengths
import CilGraph.Proofs.Text.Utf8

namespace CilGraph
namespace Image

/-!
# Readers that undo writers

A reader undoes a writer when it takes exactly the written bytes from the front
of what is left and returns the written value, whatever lies before and behind.
The two quantifiers in `Reads` are essential: without the bytes behind, the
statement could not be used inside a longer image, and without the offset
before, it could not be used after another item.

The calculus is that of the readers themselves.  A value that is returned takes
no bytes, and two readers in sequence take the bytes of the first and then
those of the second.  Everything else is built from a number of fixed width, so
the primitive facts are those about little-endian numbers, the groups of a
length, and UTF-8.
-/

/-- A reader takes exactly these bytes and returns this value. -/
def Reads {Value : Type} (read : Reader Value) (bytes : List UInt8) (value : Value) : Prop :=
  forall (offset : Nat) (rest : List UInt8),
    read ⟨offset, bytes ++ rest⟩ = .ok (value, ⟨offset + bytes.length, rest⟩)

namespace Reads

theorem pure {Value : Type} (value : Value) :
    Reads (Pure.pure value : Reader Value) [] value :=
  fun _ _ => rfl

theorem bind {First Second : Type} {read : Reader First} {next : First -> Reader Second}
    {bytes others : List UInt8} {first : First} {second : Second}
    (reads : Reads read bytes first) (continues : Reads (next first) others second) :
    Reads (read >>= next) (bytes ++ others) second := by
  intro offset rest
  change (read ⟨offset, bytes ++ others ++ rest⟩ >>= fun result => next result.1 result.2) = _
  rw [List.append_assoc, reads, List.length_append, ← Nat.add_assoc]
  exact continues (offset + bytes.length) rest

/-- A reader whose second half takes no bytes. -/
theorem finish {First Second : Type} {read : Reader First} {next : First -> Reader Second}
    {bytes : List UInt8} {first : First} {second : Second}
    (reads : Reads read bytes first) (ends : Reads (next first) [] second) :
    Reads (read >>= next) bytes second := by
  have whole := reads.bind ends
  rwa [List.append_nil] at whole

/-- A reader that ends by returning a function of what it read. -/
theorem map {First Second : Type} {read : Reader First} {bytes : List UInt8} {first : First}
    (reads : Reads read bytes first) (change : First -> Second) :
    Reads (do return change (← read)) bytes (change first) := by
  refine reads.finish ?_
  exact Reads.pure (change first)

/-- Read a value whose bytes end the image. -/
theorem run {Value : Type} {read : Reader Value} {bytes : List UInt8} {value : Value}
    (reads : Reads read bytes value) (offset : Nat) :
    read ⟨offset, bytes⟩ = .ok (value, ⟨offset + bytes.length, []⟩) := by
  have whole := reads offset []
  rwa [List.append_nil] at whole

/-! ## Numbers of fixed width -/

theorem number (width value : Nat) :
    Reads (Reader.number width) (LittleEndian.split width value) (value % 256 ^ width) := by
  intro offset rest
  have size := LittleEndian.length_split width value
  have taken : (LittleEndian.split width value ++ rest).take width =
      LittleEndian.split width value := List.take_left' size
  have left : (LittleEndian.split width value ++ rest).drop width = rest := List.drop_left' size
  simp only [Reader.number, taken, left, size, if_true, LittleEndian.combine_split]

theorem byte (value : UInt8) : Reads Reader.byte [value] value :=
  fun offset rest => Reader.byte_cons offset value rest

theorem word (value : UInt32) : Reads Reader.word (Image.word value) value := by
  have reads := (number 4 value.toNat).map UInt32.ofNat
  rw [Nat.mod_eq_of_lt (by simpa using value.toNat_lt), UInt32.ofNat_toNat] at reads
  exact reads

theorem longWord (value : UInt64) : Reads Reader.longWord (Image.longWord value) value := by
  have reads := (number 8 value.toNat).map UInt64.ofNat
  rw [Nat.mod_eq_of_lt (by simpa using value.toNat_lt), UInt64.ofNat_toNat] at reads
  exact reads

/-- A count is read back as a word.  Only a count below `2 ^ 32` is kept. -/
theorem count (value : Nat) : Reads Reader.word (Image.count value) (UInt32.ofNat value) := by
  have reads := (number 4 value).map UInt32.ofNat
  have reduced : UInt32.ofNat (value % 256 ^ 4) = UInt32.ofNat value := by
    apply UInt32.toNat_inj.mp
    simp only [UInt32.toNat_ofNat']
    omega
  rwa [reduced] at reads

theorem flag (value : Bool) : Reads Reader.flag (Image.flag value) value := by
  intro offset rest
  have reads := byte (if value then 1 else 0) offset rest
  change (Reader.byte ⟨offset, Image.flag value ++ rest⟩ >>= fun result =>
    (if result.1 = 0 then Pure.pure false
      else if result.1 = 1 then Pure.pure true
      else Reader.refuse (.invalidBoolean result.1 offset) : Reader Bool) result.2) = _
  rw [Image.flag, reads]
  cases value <;> rfl

/-! ## Lengths and texts -/

/-- The length of a text is read back below `2 ^ 32`. -/
theorem length {value : Nat} (bound : value < 2 ^ 32) :
    Reads Reader.length (Image.length value) (UInt32.ofNat value) :=
  Reader.length_of_written bound

/-- The UTF-8 form of a text is valid and decodes to the text. -/
theorem decode_utf8 (value : String) :
    String.fromUTF8? ⟨(Image.utf8 value).toArray⟩ = some value :=
  Text.fromUTF8?_eq_some_iff.mpr rfl

theorem text {value : String} (short : value.utf8ByteSize < 2 ^ 32) :
    Reads Reader.text (Image.text value) value := by
  refine (length short).bind ?_
  intro offset rest
  have size : (UInt32.ofNat value.utf8ByteSize).toNat = (Image.utf8 value).length :=
    UInt32.toNat_ofNat_of_lt' short
  have taken : (Image.utf8 value ++ rest).take (Image.utf8 value).length = Image.utf8 value :=
    List.take_left
  have left : (Image.utf8 value ++ rest).drop (Image.utf8 value).length = rest := List.drop_left
  simp only [Bind.bind, StateT.bind, get, getThe, MonadStateOf.get, StateT.get, Pure.pure,
    Except.bind, Except.pure, size, taken, Nat.lt_irrefl, if_false, decode_utf8, set, left]
  rfl

/-! ## Lists -/

/-- Items one after another are read back one after another. -/
theorem many {Item : Type} {read : Reader Item} {write : Item -> List UInt8} (items : List Item)
    (each : forall item, item ∈ items -> Reads read (write item) item) :
    Reads (Reader.many read items.length) (items.flatMap write) items := by
  induction items with
  | nil => exact Reads.pure []
  | cons first others inductionHypothesis =>
      have tail := inductionHypothesis (fun item later => each item (List.mem_cons_of_mem _ later))
      exact (each first List.mem_cons_self).bind (tail.map (fun others => first :: others))

/-- Items after their number are read back if the number fits into a word. -/
theorem list {Item : Type} {read : Reader Item} {write : Item -> List UInt8} {items : List Item}
    (short : items.length < 2 ^ 32)
    (each : forall item, item ∈ items -> Reads read (write item) item) :
    Reads (Reader.list read) (Image.list write items) items := by
  refine (count items.length).bind ?_
  rw [UInt32.toNat_ofNat_of_lt' short]
  exact many items each

theorem textPair {pair : String × String} (first : pair.1.utf8ByteSize < 2 ^ 32)
    (second : pair.2.utf8ByteSize < 2 ^ 32) :
    Reads Reader.textPair (Image.textPair pair) pair :=
  (text first).bind ((text second).map (fun second => (pair.1, second)))

end Reads
end Image
end CilGraph
