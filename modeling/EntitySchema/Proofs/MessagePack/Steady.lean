import EntitySchema.MessagePack.Reading

/-! What the readers of MessagePack make of some bytes does not depend on the bytes behind
them. So no value can be read from less than the bytes it takes. -/
namespace EntitySchema.MessagePack

variable {α β γ : Type} {reader : List UInt8 → Option (α × List UInt8)}

/-- What is read is read in the same way if more bytes follow. -/
def Steady (reader : List UInt8 → Option (α × List UInt8)) : Prop :=
  ∀ bytes value rest, reader bytes = some (value, rest) →
    ∀ more, reader (bytes ++ more) = some (value, rest ++ more)

namespace Steady

theorem pure (value : α) : Steady fun bytes => some (value, bytes) := by
  intro bytes other rest read more
  cases read
  rfl

theorem none : Steady fun _ => (none : Option (α × List UInt8)) := by
  intro bytes value rest read
  cases read

theorem map {f : α → β} (steady : Steady reader) :
    Steady fun bytes => (reader bytes).map fun read => (f read.1, read.2) := by
  intro bytes result rest read more
  obtain ⟨⟨value, after⟩, first, same⟩ := Option.map_eq_some_iff.mp read
  cases same
  change (reader (bytes ++ more)).map _ = _
  rw [steady _ _ _ first]
  rfl

theorem bind {next : α → List UInt8 → Option (β × List UInt8)} (first : Steady reader)
    (second : ∀ value, Steady (next value)) :
    Steady fun bytes => (reader bytes).bind fun read => next read.1 read.2 := by
  intro bytes result rest read more
  obtain ⟨⟨value, middle⟩, started, went⟩ := Option.bind_eq_some_iff.mp read
  change (reader (bytes ++ more)).bind _ = _
  rw [first _ _ _ started]
  exact second value _ _ _ went more

/-- A reader that is only known if there is one. -/
theorem guarded {x : Option γ} {next : γ → List UInt8 → Option (α × List UInt8)}
    (each : ∀ found ∈ x, Steady (next found)) :
    Steady fun bytes => x.bind fun found => next found bytes := by
  cases x with
  | none => exact none
  | some found => exact each found rfl

end Steady

theorem steady_splitBytes (count : Nat) : Steady (splitBytes count) := by
  suffices general : ∀ taken, Steady (splitBytesFrom taken count) from general []
  induction count with
  | zero =>
    intro taken bytes value rest read more
    simp only [splitBytesFrom, Option.some.injEq, Prod.mk.injEq] at read ⊢
    exact ⟨read.1, congrArg (· ++ more) read.2⟩
  | succ count ih =>
    intro taken bytes value rest read more
    cases bytes with
    | nil => cases read
    | cons byte bytes => exact ih (byte :: taken) _ _ _ read more

theorem steady_readNumber (count : Nat) : Steady (readNumber count) :=
  (steady_splitBytes count).map

theorem steady_readLength (head : Nat → Head) (count : Nat) : Steady (readLength head count) :=
  (steady_readNumber count).map

theorem steady_readUnsigned (count : Nat) : Steady (readUnsigned count) :=
  steady_readLength (fun n => .whole (.unsigned n)) count

theorem steady_readSigned (count : Nat) : Steady (readSigned count) :=
  steady_readLength (fun n => .whole (.signed (ofTwosComplement count n))) count

theorem steady_readFloat (count : Nat) : Steady (readFloat count) :=
  (steady_splitBytes count).map (f := fun _ => Head.whole .float)

theorem steady_readHead : Steady readHead := by
  intro bytes head rest read more
  cases bytes with
  | nil => cases read
  | cons tag bytes =>
    suffices tagged : Steady fun rest => readHead (tag :: rest) from tagged _ _ _ read more
    simp only [readHead]
    repeat' split
    all_goals first
      | exact Steady.pure _
      | exact steady_readLength _ _
      | exact steady_readUnsigned _
      | exact steady_readSigned _
      | exact steady_readFloat _
      | exact Steady.none

theorem steady_readMany (steady : Steady reader) (items : List α) (count : Nat) :
    Steady (readMany reader items count) := by
  induction count generalizing items with
  | zero => exact Steady.pure items.reverse
  | succ count ih =>
    intro bytes values rest read more
    simp only [readMany] at read ⊢
    split at read
    · rename_i new middle started
      rw [steady _ _ _ started]
      exact ih _ _ _ _ read more
    · cases read

theorem steady_readPair {second : List UInt8 → Option (β × List UInt8)} (first : Steady reader)
    (other : Steady second) : Steady (readPair reader second) :=
  first.bind fun a => other.bind fun b => Steady.pure (a, b)

theorem steady_readContent {inner : Option (List UInt8 → Option (Value × List UInt8))}
    (steady : ∀ item ∈ inner, Steady item) (head : Head) :
    Steady fun bytes => readContent inner bytes head := by
  cases head with
  | whole value => exact Steady.pure value
  | string length => exact (steady_splitBytes length).map
  | binary length => exact (steady_splitBytes length).map
  | array length =>
    exact Steady.guarded fun item known => (steady_readMany (steady item known) _ _).map
  | map length =>
    exact Steady.guarded fun item known =>
      (steady_readMany (steady_readPair (steady item known) (steady item known)) _ _).map
  | extension length =>
    exact Steady.guarded fun _ _ => (steady_splitBytes _).map (f := fun _ => Value.extension)

theorem steady_readValue (depth : Nat) : Steady (readValue depth) := by
  induction depth with
  | zero => exact steady_readHead.bind (steady_readContent (by simp))
  | succ depth ih => exact steady_readHead.bind (steady_readContent (by simpa using ih))

end EntitySchema.MessagePack
