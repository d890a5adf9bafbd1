import CilGraph.Proofs.Image.RoundTrip

namespace CilGraph
namespace Image

/-!
# Where an image ends

An image carries its own end.  What follows the last record is not looked at,
and an image that is cut off anywhere is refused.

Both come from one property of readers.  A reader that succeeds does the same
when more bytes follow: it returns the same value and leaves the further bytes
behind what it left before.  A reader must not ask how many bytes there are,
except to find that they are too few, and the readers of an image do not.  If
one of them could read a part that was cut off, it would read the whole in the
same way and leave behind what was cut off.  But the whole is read to its end.

The property is independent of writing.  It holds of every reader on all bytes,
whether or not they come from an image.
-/

/-- A reader that succeeds does the same when more bytes follow. -/
def Steady {Value : Type} (read : Reader Value) : Prop :=
  forall (place later : Place) (value : Value) (more : List UInt8),
    read place = .ok (value, later) ->
      read ⟨place.offset, place.rest ++ more⟩ = .ok (value, ⟨later.offset, later.rest ++ more⟩)

namespace Steady

theorem pure {Value : Type} (value : Value) : Steady (Pure.pure value : Reader Value) := by
  intro place later found more succeeded
  cases succeeded
  rfl

theorem refuse {Value : Type} (fault : ImageFault) :
    Steady (Reader.refuse fault : Reader Value) :=
  fun _ _ _ _ impossible => nomatch impossible

theorem bind {First Second : Type} {read : Reader First} {next : First -> Reader Second}
    (steady : Steady read) (continues : forall first, Steady (next first)) :
    Steady (read >>= next) := by
  intro place later value more succeeded
  change (read place >>= fun result => next result.1 result.2) = _ at succeeded
  change (read ⟨place.offset, place.rest ++ more⟩ >>= fun result => next result.1 result.2) = _
  cases reads : read place with
  | error fault =>
      rw [reads] at succeeded
      cases succeeded
  | ok result =>
      rcases result with ⟨first, between⟩
      rw [reads] at succeeded
      rw [steady place between first more reads]
      exact continues first between later value more succeeded

/-- A reader that ends by returning a function of what it read. -/
theorem map {First Second : Type} {read : Reader First} (steady : Steady read)
    (change : First -> Second) : Steady (do return change (← read)) :=
  steady.bind (fun first => Steady.pure (change first))

/-- The offset is the same whatever follows, so a reader may look at it. -/
theorem located {Value : Type} {read : Nat -> Reader Value}
    (each : forall offset, Steady (read offset)) : Steady (fun place => read place.offset place) :=
  fun place later value more succeeded => each place.offset place later value more succeeded

/-! ## Numbers and lengths -/

theorem number (width : Nat) : Steady (Reader.number width) := by
  intro place later value more succeeded
  unfold Reader.number at succeeded ⊢
  by_cases complete : (place.rest.take width).length = width
  · have enough : width ≤ place.rest.length := by
      rw [List.length_take] at complete
      omega
    simp only [complete, if_true] at succeeded
    cases succeeded
    simp only [List.take_append_of_le_length enough, List.drop_append_of_le_length enough,
      complete, if_true]
  · simp only [if_neg complete] at succeeded
    cases succeeded

theorem byte : Steady Reader.byte :=
  (number 1).map UInt8.ofNat

theorem word : Steady Reader.word :=
  (number 4).map UInt32.ofNat

theorem longWord : Steady Reader.longWord :=
  (number 8).map UInt64.ofNat

theorem flag : Steady Reader.flag := by
  have each : forall offset, Steady (do
      let value ← Reader.byte
      if value = 0 then return false
      else if value = 1 then return true
      else Reader.refuse (.invalidBoolean value offset)) := by
    intro offset
    refine byte.bind (fun value => ?_)
    split
    · exact Steady.pure false
    · split
      · exact Steady.pure true
      · exact Steady.refuse _
  exact located each

theorem lengthGroups (left : Nat) (shift known : UInt32) :
    Steady (Reader.lengthGroups left shift known) := by
  induction left generalizing shift known with
  | zero => exact fun _ _ _ _ impossible => nomatch impossible
  | succ left inductionHypothesis =>
      refine byte.bind (fun group => ?_)
      simp only
      split
      · exact Steady.pure _
      · exact inductionHypothesis _ _

/-! ## Texts and lists -/

/-- The bytes of a text are the same whatever follows, if there are enough. -/
theorem text : Steady Reader.text := by
  refine (lengthGroups 5 0 0).bind (fun size => ?_)
  intro place later value more succeeded
  simp only [Bind.bind, StateT.bind, get, getThe, MonadStateOf.get, StateT.get, Pure.pure,
    Except.bind, Except.pure] at succeeded ⊢
  by_cases short : (place.rest.take size.toNat).length < size.toNat
  · rw [if_pos short] at succeeded
    cases succeeded
  · have enough : size.toNat ≤ place.rest.length := by
      rw [List.length_take] at short
      omega
    rw [if_neg short] at succeeded
    rw [List.take_append_of_le_length enough, if_neg short]
    cases decodes : String.fromUTF8? ⟨(place.rest.take size.toNat).toArray⟩ with
    | none =>
        rw [decodes] at succeeded
        cases succeeded
    | some decoded =>
        rw [decodes] at succeeded
        cases succeeded
        simp only [List.drop_append_of_le_length enough]
        rfl

theorem many {Item : Type} {read : Reader Item} (steady : Steady read) (count : Nat) :
    Steady (Reader.many read count) := by
  induction count with
  | zero => exact Steady.pure []
  | succ count inductionHypothesis =>
      exact steady.bind (fun first => inductionHypothesis.map (fun others => first :: others))

theorem list {Item : Type} {read : Reader Item} (steady : Steady read) :
    Steady (Reader.list read) :=
  word.bind (fun count => steady.many count.toNat)

theorem textPair : Steady Reader.textPair :=
  text.bind (fun first => text.map (fun second => (first, second)))

/-! ## Records -/

theorem operation (id : UInt32) : Steady (Reader.operation id) := by
  refine word.bind (fun tag => ?_)
  split
  · exact Steady.pure _
  · exact Steady.refuse _

theorem node : Steady Reader.node := by
  refine word.bind (fun id => ?_)
  refine word.bind (fun offset => ?_)
  refine (operation id).bind (fun operation => ?_)
  refine text.bind (fun text => ?_)
  refine word.list.bind (fun inputs => ?_)
  exact longWord.list.map _

theorem typeRecord : Steady Reader.typeRecord := by
  refine text.bind (fun name => ?_)
  refine flag.bind (fun isStatic => ?_)
  exact textPair.list.map _

theorem methodRecord : Steady Reader.methodRecord := by
  refine text.bind (fun name => ?_)
  refine flag.bind (fun isStatic => ?_)
  refine flag.bind (fun isConstructor => ?_)
  refine flag.bind (fun initLocals => ?_)
  refine word.bind (fun maxStack => ?_)
  refine text.list.bind (fun strings => ?_)
  exact node.list.map _

theorem magicWord : Steady Reader.magicWord := by
  refine word.bind (fun found => ?_)
  split
  · exact Steady.pure ()
  · exact Steady.refuse _

theorem records : Steady Reader.records := by
  refine magicWord.bind (fun _ => ?_)
  refine word.bind (fun typeCount => ?_)
  refine word.bind (fun methodCount => ?_)
  refine word.bind (fun nativeCount => ?_)
  refine (typeRecord.many _).bind (fun types => ?_)
  refine (methodRecord.many _).bind (fun methods => ?_)
  exact (textPair.many _).map _

/-- A steady reader that reads bytes to their end cannot read a part that was
cut off: it would leave behind what is missing. -/
theorem refuses {Value : Type} {read : Reader Value} (steady : Steady read)
    {front missing : List UInt8} {value : Value} (reads : Reads read (front ++ missing) value)
    (isCut : missing ≠ []) (offset : Nat) : exists fault, read ⟨offset, front⟩ = .error fault := by
  cases outcome : read ⟨offset, front⟩ with
  | error fault => exact ⟨fault, rfl⟩
  | ok result =>
      rcases result with ⟨found, later⟩
      have extended := steady ⟨offset, front⟩ later found missing outcome
      have whole := reads.run offset
      rw [extended] at whole
      have nothingLeft : later.rest ++ missing = [] :=
        congrArg (fun result => result.2.rest) (Except.ok.inj whole)
      exact absurd (List.append_eq_nil_iff.mp nothingLeft).2 isCut

end Steady

/-- An image is read back whatever follows it, and no proper part of it from
its beginning on is accepted as an image. -/
theorem read_framed (records : Records) (consistent : records.Consistent)
    (fits : records.Fits) :
    (forall junk, read (write records ++ junk) = .ok records) ∧
      forall front, front <+: write records -> front ≠ write records ->
        exists fault, read front = .error (.malformedImage fault) := by
  have reads := Reads.records consistent fits
  constructor
  · intro junk
    unfold read
    rw [reads 0 junk]
  · rintro front ⟨missing, whole⟩ isProper
    have isCut : missing ≠ [] := by
      intro nothing
      rw [nothing, List.append_nil] at whole
      exact isProper whole
    rw [← whole] at reads
    rcases Steady.records.refuses reads isCut 0 with ⟨fault, refused⟩
    refine ⟨fault, ?_⟩
    unfold read
    rw [refused]

/-- The image of the sample with two bytes behind it, and without its last
byte. -/
theorem read_framed_sampleRecords :
    sampleRecords.Consistent ∧ sampleRecords.Fits ∧
      read (write sampleRecords ++ [0xFF, 0x00]) = .ok sampleRecords ∧
      exists fault, read (write sampleRecords).dropLast = .error (.malformedImage fault) := by
  have consistent := sampleRecords_grown.consistent
  rcases read_framed sampleRecords consistent sampleRecords_fits with ⟨trailing, cut⟩
  refine ⟨consistent, sampleRecords_fits, trailing _, cut _ (List.dropLast_prefix _) ?_⟩
  intro same
  have lengths := congrArg List.length same
  rw [List.length_dropLast] at lengths
  have positive : 0 < (write sampleRecords).length := by decide +kernel
  omega

end Image
end CilGraph
