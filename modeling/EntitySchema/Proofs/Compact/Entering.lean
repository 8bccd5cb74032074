import EntitySchema.Proofs.Compact.Limits

/-! The string table under any row of requests, also beyond its limit. Strings get the numbers
from zero on in order of first use and keep them; a full table refuses new strings and goes on to
answer for old ones. What is written of it and read back is the same numbering. -/
namespace EntitySchema.Compact

namespace Dictionary

/-- One request, whose failure ends nothing. -/
def ask (dictionary : Dictionary) (text : String) : Except CapacityProblem UInt16 × Dictionary :=
  match enter text dictionary with
  | .ok id after => (.ok id, after)
  | .error problem after => (.error problem, after)

/-- Requests from left to right, whether or not they fail. -/
def askAll (dictionary : Dictionary) :
    List String → List (Except CapacityProblem UInt16) × Dictionary
  | [] => ([], dictionary)
  | text :: rest =>
    let others := (dictionary.ask text).2.askAll rest
    ((dictionary.ask text).1 :: others.1, others.2)

/-- The answer for a string where the strings are numbered by the given order. -/
def answer (order : List String) (text : String) : Except CapacityProblem UInt16 :=
  if order.idxOf text < maxStrings then .ok (order.idxOf text).toUInt16
  else .error (.dictionaryOverflow maxStrings)

variable {dictionary after : Dictionary} {order texts done : List String} {text other : String}
  {id : UInt16} {problem : CapacityProblem}

section Answers

theorem answer_eq_ok_iff : answer order text = .ok id ↔ order.idxOf text = id.toNat := by
  rw [answer]
  split
  · rename_i room
    have exact : (order.idxOf text).toUInt16.toNat = order.idxOf text :=
      UInt16.toNat_ofNat_of_lt room
    rw [Except.ok.injEq, ← UInt16.toNat_inj, exact]
  · rename_i full
    have below : id.toNat < maxStrings := id.toNat_lt
    constructor
    · intro answered
      cases answered
    · intro same
      exact absurd (same ▸ below) full

theorem answer_eq_error_iff : answer order text = .error problem ↔
    maxStrings ≤ order.idxOf text ∧ problem = .dictionaryOverflow maxStrings := by
  rw [answer]
  split
  · rename_i room
    constructor
    · intro answered
      cases answered
    · rintro ⟨beyond, -⟩
      exact absurd room (Nat.not_lt_of_le beyond)
  · rename_i full
    rw [Except.error.injEq, eq_comm]
    exact (and_iff_right (Nat.le_of_not_lt full)).symm

theorem answer_append (known : text ∈ order) (more : List String) :
    answer (order ++ more) text = answer order text := by
  rw [answer, answer, List.idxOf_append_of_mem known]

/-- The string of a number is that in its place. -/
theorem mem_and_answer_iff (distinct : order.Nodup) :
    text ∈ order ∧ answer order text = .ok id ↔ order[id.toNat]? = some text := by
  rw [answer_eq_ok_iff]
  constructor
  · rintro ⟨known, same⟩
    rw [← same]
    exact List.getElem?_idxOf known
  · intro placed
    obtain ⟨inside, rfl⟩ := List.getElem?_eq_some_iff.mp placed
    exact ⟨List.getElem_mem inside, distinct.idxOf_getElem _ inside⟩

end Answers

section Requests

/-- A request for a new string fails if the table is full, and no other request does. -/
theorem enter_eq_error_iff (small : dictionary.size ≤ maxStrings) :
    enter text dictionary = .error problem after ↔
      text ∉ dictionary.strings.keys ∧ dictionary.size = maxStrings ∧
        problem = .dictionaryOverflow maxStrings ∧ after = dictionary := by
  rcases enter_cases dictionary text with ⟨i, found, same⟩ | ⟨-, room, same⟩ | ⟨new, full, same⟩
  · have known := List.mem_of_getElem? (OrderedMap.position?_eq_some_iff.mp found)
    rw [same]
    constructor
    · intro entered
      cases entered
    · rintro ⟨new, -⟩
      exact absurd known new
  · rw [same]
    constructor
    · intro entered
      cases entered
    · rintro ⟨-, full, -⟩
      exact absurd full (Nat.ne_of_lt room)
  · rw [same]
    constructor
    · rintro ⟨⟩
      exact ⟨new, Nat.le_antisymm small full, rfl, rfl⟩
    · rintro ⟨-, -, rfl, rfl⟩
      rfl

theorem enter_of_stored (stored : dictionary.strings.keys[id.toNat]? = some text) :
    enter text dictionary = .ok id dictionary := by
  rw [enter, OrderedMap.position?_eq_some_iff.mpr stored]
  simp

end Requests

section Runs

theorem nodup_eraseDups (texts : List String) : texts.eraseDups.Nodup := by
  induction texts using List.reverseRecOn with
  | nil => exact List.nodup_nil
  | append_singleton texts text ih =>
    by_cases known : text ∈ texts
    · rwa [eraseDups_concat_of_mem known]
    · rw [eraseDups_concat_of_not_mem known, ← List.concat_eq_append]
      exact List.Nodup.concat (mt List.mem_eraseDups.mp known) ih

/-- The strings that have been asked for are stored in order of first use, as far as there are
numbers for them. -/
def Recalls (dictionary : Dictionary) (asked : List String) : Prop :=
  dictionary.strings.keys = asked.eraseDups.take maxStrings

namespace Recalls

theorem size (recalls : dictionary.Recalls done) :
    dictionary.size = min maxStrings done.eraseDups.length := by
  rw [Dictionary.size, ← OrderedMap.length_keys, recalls, List.length_take]

theorem small (recalls : dictionary.Recalls done) : dictionary.size ≤ maxStrings := by
  rw [recalls.size]
  exact Nat.min_le_left _ _

theorem mem_of_mem_keys (recalls : dictionary.Recalls done)
    (stored : text ∈ dictionary.strings.keys) : text ∈ done := by
  rw [recalls] at stored
  exact List.mem_eraseDups.mp (List.mem_of_mem_take stored)

/-- What is stored under a number is what the number was the answer for. -/
theorem stored_iff (recalls : dictionary.Recalls done) :
    dictionary.strings.keys[id.toNat]? = some text ↔
      text ∈ done ∧ answer done.eraseDups text = .ok id := by
  have below : id.toNat < maxStrings := id.toNat_lt
  rw [recalls, List.getElem?_take_of_lt below, ← mem_and_answer_iff (nodup_eraseDups done),
    List.mem_eraseDups]

theorem exists_answer (recalls : dictionary.Recalls done)
    (stored : text ∈ dictionary.strings.keys) :
    ∃ id, answer done.eraseDups text = .ok id := by
  obtain ⟨i, placed⟩ := List.mem_iff_getElem?.mp stored
  have below : i < maxStrings := by
    have inside := (List.getElem?_eq_some_iff.mp placed).1
    rw [OrderedMap.length_keys] at inside
    exact Nat.lt_of_lt_of_le inside recalls.small
  have exact : i.toUInt16.toNat = i := UInt16.toNat_ofNat_of_lt below
  rw [← exact] at placed
  exact ⟨i.toUInt16, (recalls.stored_iff.mp placed).2⟩

/-- A string that has been asked for gets its answer again. -/
theorem ask_known (recalls : dictionary.Recalls done) (known : text ∈ done) :
    dictionary.ask text = (answer done.eraseDups text, dictionary) := by
  cases answered : answer done.eraseDups text with
  | ok id => rw [ask, enter_of_stored (recalls.stored_iff.mpr ⟨known, answered⟩)]
  | error problem =>
    -- it came when the table was full, which it still is
    obtain ⟨beyond, rfl⟩ := answer_eq_error_iff.mp answered
    have new : text ∉ dictionary.strings.keys := by
      intro stored
      obtain ⟨id, other⟩ := recalls.exists_answer stored
      cases answered.symm.trans other
    have inside : done.eraseDups.idxOf text < done.eraseDups.length :=
      List.idxOf_lt_length_iff.mpr (List.mem_eraseDups.mpr known)
    have full : dictionary.size = maxStrings := by
      rw [recalls.size]
      omega
    rw [ask, (enter_eq_error_iff recalls.small).mpr ⟨new, full, rfl, rfl⟩]

/-- A string that has not been asked for gets the next number as long as there is one. -/
theorem ask_new (recalls : dictionary.Recalls done) (new : text ∉ done) :
    (dictionary.ask text).1 = answer (done ++ [text]).eraseDups text ∧
      (dictionary.ask text).2.Recalls (done ++ [text]) := by
  have size := recalls.size
  have fresh : text ∉ dictionary.strings.keys := mt recalls.mem_of_mem_keys new
  have next : (done.eraseDups ++ [text]).idxOf text = done.eraseDups.length := by
    rw [List.idxOf_append_of_notMem (mt List.mem_eraseDups.mp new), List.idxOf_cons_self,
      Nat.add_zero]
  rw [Recalls, eraseDups_concat_of_not_mem new, answer, next]
  rcases enter_cases dictionary text with ⟨i, found, -⟩ | ⟨-, room, same⟩ | ⟨-, full, same⟩
  · exact absurd (List.mem_of_getElem? (OrderedMap.position?_eq_some_iff.mp found)) fresh
  · have count : done.eraseDups.length = dictionary.size := by omega
    have keys : dictionary.strings.keys = done.eraseDups := by
      rw [recalls, List.take_of_length_le (by omega)]
    rw [ask, same, count, if_pos room, OrderedMap.keys_insert, if_neg fresh, keys,
      List.take_of_length_le]
    · exact ⟨rfl, rfl⟩
    · rw [List.length_append, List.length_singleton]
      omega
  · rw [ask, same, if_neg (by omega), List.take_append_of_le_length (by omega)]
    exact ⟨rfl, recalls⟩

theorem ask (recalls : dictionary.Recalls done) (text : String) :
    (dictionary.ask text).1 = answer (done ++ [text]).eraseDups text ∧
      (dictionary.ask text).2.Recalls (done ++ [text]) := by
  by_cases known : text ∈ done
  · rw [recalls.ask_known known, Recalls, eraseDups_concat_of_mem known]
    exact ⟨rfl, recalls⟩
  · exact recalls.ask_new known

/-- What is answered first is answered ever after, and what is stored goes on to be as much as
there is room for. -/
theorem askAll (recalls : dictionary.Recalls done) (texts : List String) :
    (dictionary.askAll texts).1 = texts.map (answer (done ++ texts).eraseDups) ∧
      (dictionary.askAll texts).2.Recalls (done ++ texts) := by
  induction texts generalizing dictionary done with
  | nil =>
    rw [List.append_nil]
    exact ⟨rfl, recalls⟩
  | cons text texts ih =>
    obtain ⟨answered, stored⟩ := recalls.ask text
    obtain ⟨answers, last⟩ := ih stored
    have settled : answer (done ++ [text] ++ texts).eraseDups text =
        answer (done ++ [text]).eraseDups text := by
      rw [List.eraseDups_append, answer_append]
      exact List.mem_eraseDups.mpr (List.mem_append_right _ List.mem_cons_self)
    rw [List.append_cons]
    refine ⟨?_, last⟩
    rw [Dictionary.askAll, List.map_cons, answers, answered, settled]

end Recalls

end Runs

section Numbering

/-- What a row of requests comes to: strings and numbers are told apart by each other, for good,
and the table that is read back from what is written is that of the strings by number. -/
structure Numbered (texts : List String) (answers : List (Except CapacityProblem UInt16))
    (dictionary : Dictionary) : Prop where
  stored : dictionary.strings.keys = texts.eraseDups.take 65536
  dense : answers = texts.map (answer texts.eraseDups)
  one_to_one (i j : Nat) (id : UInt16) : answers[i]? = some (Except.ok id) →
    (answers[j]? = some (Except.ok id) ↔ texts[j]? = texts[i]?)
  stable (i : Nat) (id : UInt16) (text : String) :
    answers[i]? = some (Except.ok id) → texts[i]? = some text →
      ∀ more, enter text (dictionary.askAll more).2 = .ok id (dictionary.askAll more).2
  refused (text : String) (problem : CapacityProblem) (after : Dictionary) :
    enter text dictionary = .error problem after ↔
      text ∉ dictionary.strings.keys ∧ dictionary.size = 65536 ∧
        problem = .dictionaryOverflow 65536 ∧ after = dictionary
  read_back (bytes : List UInt8) : dictionary.serialize = .ok bytes →
    ∃ table, Reads StringTable.read bytes table ∧ ∀ id,
      (∀ text, table.lookup id = .ok text ↔
        ∃ i : Nat, texts[i]? = some text ∧ answers[i]? = some (Except.ok id)) ∧
      ((∀ i : Nat, answers[i]? ≠ some (Except.ok id)) →
        table.lookup id = .error (.invalidStringId id dictionary.size))

theorem getElem?_answers {i : Nat} : (texts.map (answer order))[i]? = some (.ok id) ↔
    ∃ text, texts[i]? = some text ∧ answer order text = .ok id := by
  rw [List.getElem?_map, Option.map_eq_some_iff]

theorem answer_eq_iff (known : text ∈ order) (answered : answer order text = .ok id) :
    answer order other = .ok id ↔ other = text := by
  rw [answer_eq_ok_iff] at answered ⊢
  rw [← answered, eq_comm, List.idxOf_inj known, eq_comm]

/-- What is stored under a number is what has been given the number. -/
theorem received_iff (recalls : dictionary.Recalls texts) :
    dictionary.strings.keys[id.toNat]? = some text ↔
      ∃ i : Nat, texts[i]? = some text ∧
        (texts.map (answer texts.eraseDups))[i]? = some (Except.ok id) := by
  rw [recalls.stored_iff, List.mem_iff_getElem?, ← exists_and_right]
  apply exists_congr
  intro i
  rw [getElem?_answers]
  constructor
  · rintro ⟨asked, answered⟩
    exact ⟨asked, text, asked, answered⟩
  · rintro ⟨asked, other, there, answered⟩
    cases asked.symm.trans there
    exact ⟨asked, answered⟩

theorem lookup_table_eq_ok_iff :
    dictionary.table.lookup id = .ok text ↔ dictionary.strings.keys[id.toNat]? = some text := by
  simp only [StringTable.lookup, table, List.getElem?_toArray]
  cases dictionary.strings.keys[id.toNat]? with
  | none => simp only [reduceCtorEq]
  | some other => rw [Except.ok.injEq, Option.some.injEq]

theorem lookup_table_eq_error (unused : dictionary.strings.keys[id.toNat]? = none) :
    dictionary.table.lookup id = .error (.invalidStringId id dictionary.size) := by
  simp only [StringTable.lookup, table, List.getElem?_toArray, unused, List.size_toArray,
    OrderedMap.length_keys]
  rfl

/-- Whatever is asked for, in whichever order and however much, the strings are numbered. -/
theorem numbered_askAll (texts : List String) :
    Numbered texts (empty.askAll texts).1 (empty.askAll texts).2 := by
  have nothing : empty.Recalls [] := rfl
  obtain ⟨answers, recalls⟩ := nothing.askAll texts
  rw [List.nil_append] at answers recalls
  generalize (empty.askAll texts).2 = dictionary at recalls ⊢
  rw [answers]
  constructor
  case stored => exact recalls
  case dense => rfl
  case one_to_one =>
    intro i j id first
    obtain ⟨text, asked, answered⟩ := getElem?_answers.mp first
    have known : text ∈ texts.eraseDups := List.mem_eraseDups.mpr (List.mem_of_getElem? asked)
    rw [getElem?_answers, asked]
    constructor
    · rintro ⟨other, there, same⟩
      rw [there, (answer_eq_iff known answered).mp same]
    · intro there
      exact ⟨text, there, answered⟩
  case stable =>
    intro i id text received asked more
    obtain ⟨text, there, answered⟩ := getElem?_answers.mp received
    cases there.symm.trans asked
    obtain ⟨-, later⟩ := recalls.askAll more
    have known := List.mem_of_getElem? asked
    apply enter_of_stored
    rw [later.stored_iff, List.eraseDups_append, answer_append (List.mem_eraseDups.mpr known)]
    exact ⟨List.mem_append_left _ known, answered⟩
  case refused => exact fun text problem after => enter_eq_error_iff recalls.small
  case read_back =>
    intro bytes written
    refine ⟨dictionary.table, reads_table recalls.small written, fun id => ⟨fun text => ?_, ?_⟩⟩
    · exact lookup_table_eq_ok_iff.trans (received_iff recalls)
    · intro unused
      apply lookup_table_eq_error
      cases stored : dictionary.strings.keys[id.toNat]? with
      | none => rfl
      | some text =>
        obtain ⟨i, -, there⟩ := (received_iff recalls).mp stored
        exact absurd there (unused i)

theorem numbered_askAll_repeated :
    (empty.askAll ["targetname", "origin", "targetname", ""]).1 =
        [.ok 0, .ok 1, .ok 0, .ok 2] ∧
      (empty.askAll ["targetname", "origin", "targetname", ""]).2.strings.keys =
        ["targetname", "origin", ""] := by
  have numbered := numbered_askAll ["targetname", "origin", "targetname", ""]
  exact ⟨numbered.dense.trans (by decide), numbered.stored.trans (by decide)⟩

end Numbering

end Dictionary

end EntitySchema.Compact
