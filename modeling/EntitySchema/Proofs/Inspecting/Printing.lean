import EntitySchema.Proofs.Folding
import EntitySchema.Proofs.Inspecting.Drawing

/-! Printed inheritance trees. If the classes below a class have names without blanks, the
lines of its printed tree can be read back; those without a mark name the lineage of the
class in order, and how far a line is indented tells how many steps lead to it. -/
namespace EntitySchema

namespace Inspector

/-- What a line of a printed tree shows. -/
structure Shown where
  indentation : Nat
  name : String
  marked : Bool
  deriving DecidableEq

/-- Reads a line: what it is indented by, the text up to a blank, and a mark behind it. -/
def shownLine (line : List Char) : Shown :=
  let text := line.dropWhile (· == ' ')
  let rest := text.dropWhile fun c => !Text.isBlank c
  ⟨(line.takeWhile (· == ' ')).length, String.ofList (text.takeWhile fun c => !Text.isBlank c),
    rest == " (cycle)".toList⟩

/-- Reads a printed tree line by line. -/
def shown (text : String) : List Shown := (text.toList.splitOn '\n').map shownLine

/-- A name that is not empty and has no blanks. -/
def Plain (name : String) : Prop := name ≠ "" ∧ ∀ c ∈ name.toList, Text.isBlank c = false

instance (name : String) : Decidable (Plain name) :=
  haveI : Decidable (∀ c ∈ name.toList, Text.isBlank c = false) := List.decidableBAll _ _
  inferInstanceAs (Decidable (name ≠ "" ∧ _))

/-! Lines that have no line feeds and end visibly come out of the printed text as they are. -/

def EndsVisibly (text : List Char) : Prop := ∃ front c, text = front ++ [c] ∧ Text.isBlank c = false

theorem flatMap_lineFeed {texts : List (List Char)} (some : texts ≠ []) :
    texts.flatMap (· ++ ['\n']) = ['\n'].intercalate texts ++ ['\n'] := by
  induction texts with
  | nil => exact absurd rfl some
  | cons first others ih =>
    cases others with
    | nil => simp
    | cons second others =>
      rw [List.flatMap_cons, ih (List.cons_ne_nil _ _), List.intercalate_cons_cons,
        List.append_assoc, List.append_assoc, List.append_assoc]

theorem endsVisibly_intercalate {texts : List (List Char)} (some : texts ≠ [])
    (visible : ∀ text ∈ texts, EndsVisibly text) : EndsVisibly (['\n'].intercalate texts) := by
  induction texts with
  | nil => exact absurd rfl some
  | cons first others ih =>
    cases others with
    | nil => simpa using visible first List.mem_cons_self
    | cons second others =>
      obtain ⟨front, c, same, solid⟩ := ih (List.cons_ne_nil _ _)
        fun text member => visible text (List.mem_cons_of_mem _ member)
      refine ⟨first ++ ['\n'] ++ front, c, ?_, solid⟩
      rw [List.intercalate_cons_cons, same, List.append_assoc _ front]

theorem trimEnd_append_lineFeed {text : List Char} (visible : EndsVisibly text) :
    Text.trimEnd (text ++ ['\n']) = text := by
  obtain ⟨front, c, rfl, solid⟩ := visible
  have feed : ∀ c ∈ ['\n'], Text.isBlank c = true := List.forall_mem_singleton.mpr (by decide)
  rw [Text.trimEnd_append_of_isBlank feed]
  exact Text.trimEnd_eq_self_iff.mpr (by simpa using solid)

theorem shown_of_lines {texts : List String} (some : texts ≠ [])
    (visible : ∀ text ∈ texts, '\n' ∉ text.toList ∧ EndsVisibly text.toList) :
    shown (trimmedEnd (lines texts)) = texts.map fun text => shownLine text.toList := by
  have rows : texts.map String.toList ≠ [] := by simpa using some
  have each : ∀ row ∈ texts.map String.toList, '\n' ∉ row ∧ EndsVisibly row := by
    intro row member
    obtain ⟨text, inside, rfl⟩ := List.mem_map.mp member
    exact visible text inside
  have printed : (lines texts).toList =
      ['\n'].intercalate (texts.map String.toList) ++ ['\n'] := by
    rw [lines, String.toList_join, List.flatMap_map, ← flatMap_lineFeed rows, List.flatMap_map]
    simp [line]
  have ends := endsVisibly_intercalate rows fun row member => (each row member).2
  rw [shown, trimmedEnd, String.toList_ofList, printed, trimEnd_append_lineFeed ends,
    List.splitOn_intercalate '\n' (fun row member => (each row member).1) rows, List.map_map]
  rfl

/-! A plain name is read back from its line. -/

theorem Plain.isBlank_head {name : String} (plain : Plain name) :
    ∃ c rest, name.toList = c :: rest ∧ Text.isBlank c = false := by
  cases split : name.toList with
  | nil => exact absurd (String.toList_eq_nil_iff.mp split) plain.1
  | cons c rest => exact ⟨c, rest, rfl, plain.2 c (by simp [split])⟩

/-- What is written behind the name on a line. -/
def mark (repeated : Bool) : List Char := if repeated then " (cycle)".toList else []

theorem shownLine_plain {name : String} (plain : Plain name) (width : Nat) (repeated : Bool) :
    shownLine (List.replicate width ' ' ++ (name.toList ++ mark repeated)) =
      ⟨width, name, repeated⟩ := by
  obtain ⟨c, rest, split, solid⟩ := plain.isBlank_head
  have letter : (c == ' ') = false := by
    rw [beq_eq_false_iff_ne]
    rintro rfl
    cases solid
  have spaces : ∀ c ∈ List.replicate width ' ', (c == ' ') = true := fun c member => by
    rw [List.eq_of_mem_replicate member]
    rfl
  have word : ∀ c ∈ name.toList, (!Text.isBlank c) = true := fun c member => by
    rw [plain.2 c member]
    rfl
  have indentation : (List.replicate width ' ' ++ (name.toList ++ mark repeated)).takeWhile
      (· == ' ') = List.replicate width ' ' := by
    rw [List.takeWhile_append_of_pos spaces, split]
    simp [letter]
  have text : (List.replicate width ' ' ++ (name.toList ++ mark repeated)).dropWhile
      (· == ' ') = name.toList ++ mark repeated := by
    rw [List.dropWhile_append_of_pos spaces, split]
    simp [letter]
  have behind : (mark repeated).takeWhile (fun c => !Text.isBlank c) = [] ∧
      (mark repeated).dropWhile (fun c => !Text.isBlank c) = mark repeated ∧
      (mark repeated == " (cycle)".toList) = repeated := by
    cases repeated <;> decide
  rw [shownLine]
  simp only [indentation, text, List.takeWhile_append_of_pos word,
    List.dropWhile_append_of_pos word, behind, List.length_replicate, List.append_nil,
    String.ofList_toList]

theorem toList_branchLine {db : Database} {entity : EntityClass} (branch : Branch)
    (known : db.classAt? branch.id = some entity) : (branchLine db branch).toList =
      List.replicate (2 * branch.depth) ' ' ++ (entity.name.toList ++ mark branch.repeated) := by
  rw [branchLine, known, mark]
  cases branch.repeated <;> simp

theorem visible_branchLine {db : Database} {entity : EntityClass} (branch : Branch)
    (known : db.classAt? branch.id = some entity) (plain : Plain entity.name) :
    '\n' ∉ (branchLine db branch).toList ∧ EndsVisibly (branchLine db branch).toList := by
  rw [toList_branchLine branch known]
  constructor
  · intro feed
    rcases List.mem_append.mp feed with space | later
    · cases List.eq_of_mem_replicate space
    rcases List.mem_append.mp later with letter | marked
    · cases plain.2 _ letter
    · revert marked
      cases branch.repeated <;> decide
  · cases branch.repeated with
    | true =>
      refine ⟨List.replicate (2 * branch.depth) ' ' ++ (entity.name.toList ++ " (cycle".toList),
        ')', ?_, by decide⟩
      simp [mark]
    | false =>
      cases split : entity.name.toList using List.reverseRecOn with
      | nil => exact absurd (String.toList_eq_nil_iff.mp split) plain.1
      | append_singleton front c =>
        refine ⟨List.replicate (2 * branch.depth) ' ' ++ front, c, ?_, plain.2 c (by simp [split])⟩
        simp [mark]

end Inspector

namespace Database

open Inspector Relation

variable {db : Database} {id other : ClassId} {entity : EntityClass}

theorem isSome_of_reaches (known : (db.classAt? id).isSome) (reached : db.Reaches id other) :
    (db.classAt? other).isSome := by
  cases reached with
  | refl => exact known
  | tail _ step =>
    obtain ⟨_, -, -, defined⟩ := step
    exact defined

/-- What a printed line shows of a line of the tree. -/
def ShowsNode (db : Database) (line : Shown) (node : Node) : Prop :=
  ∃ entity, db.classAt? node.id = some entity ∧
    line = ⟨2 * node.path.length, entity.name, node.repeated⟩

/-- What the printed tree of a class shows of the drawing of its bases: on each line the
class, indented by two spaces for each of the steps along linked bases that lead to it;
and on the lines without a mark the lineage of the class. -/
structure PrintsLineage (db : Database) (id : ClassId) (text : String) (drawn : List Node) :
    Prop where
  lines : (shown text).Forall₂ db.ShowsNode drawn
  steps : ∀ node ∈ drawn, (node.id :: node.path).getLast? = some id ∧
    (node.id :: node.path).IsChain fun base id => db.Inherits id base
  lineage : (drawn.filter fun node => !node.repeated).map Node.id = db.lineage id
  names : ((shown text).filter fun line => !line.marked).map Shown.name =
    (db.ancestry id).map EntityClass.name
  once : (db.lineage id).Nodup

/-- The text of a line of the tree is read back as what it shows. -/
theorem showsNode_branchLine {node : Node} (known : db.classAt? node.id = some entity)
    (plain : Plain entity.name) :
    db.ShowsNode (shownLine (branchLine db node.branch).toList) node := by
  refine ⟨entity, known, ?_⟩
  rw [toList_branchLine node.branch known]
  exact shownLine_plain plain _ _

theorem forall₂_shown (known : db.classAt? id = some entity)
    (plain : ∀ other definition, db.Reaches id other → db.classAt? other = some definition →
      Plain definition.name) :
    (shown (bases db id)).Forall₂ db.ShowsNode (nodes (tree db id)) := by
  obtain ⟨draws, whole⟩ := exists_draws_tree known
  have named : ∀ node ∈ nodes (tree db id), ∃ definition,
      db.classAt? node.id = some definition ∧ Plain definition.name := by
    intro node member
    have reached := (mem_lineage_iff known).mp (draws.mem_after member)
    obtain ⟨definition, found⟩ := Option.isSome_iff_exists.mp
      (isSome_of_reaches (by rw [known]; rfl) reached)
    exact ⟨definition, found, plain _ _ reached found⟩
  have visible : ∀ text ∈ (tree db id).map (branchLine db),
      '\n' ∉ text.toList ∧ EndsVisibly text.toList := by
    intro text member
    rw [whole, List.map_map] at member
    obtain ⟨node, inside, rfl⟩ := List.mem_map.mp member
    obtain ⟨definition, found, solid⟩ := named node inside
    exact visible_branchLine node.branch found solid
  have some : (tree db id).map (branchLine db) ≠ [] := by
    intro none
    rw [whole, List.map_map, List.map_eq_nil_iff] at none
    have row := draws.after_eq
    obtain ⟨inherited, first⟩ := lineage_cons known
    rw [none, first] at row
    cases row
  rw [bases, shown_of_lines some visible, congrArg (List.map (branchLine db)) whole,
    List.map_map, List.map_map, List.forall₂_map_left_iff, List.forall₂_same]
  intro node member
  obtain ⟨definition, found, solid⟩ := named node member
  exact showsNode_branchLine found solid

theorem names_of_shown {printed : List Shown} {drawn : List Node}
    (shows_ : printed.Forall₂ db.ShowsNode drawn) :
    (printed.filter fun line => !line.marked).map Shown.name =
      (((drawn.filter fun node => !node.repeated).map Node.id).filterMap db.classAt?).map
        EntityClass.name := by
  induction shows_ with
  | nil => rfl
  | @cons _ node _ _ here _ ih =>
    obtain ⟨entity, known, rfl⟩ := here
    cases marked : node.repeated <;> simp [marked, known, ih]

theorem Draws.getLast?_path {drawn : List Node} {after : List ClassId} {node : Node}
    (draws : db.Draws [] [] [id] drawn after) (member : node ∈ drawn) :
    (node.id :: node.path).getLast? = some id := by
  refine draws.forall_ways (P := fun way => way.getLast? = some id) nofun ?_ ?_ member
  · intro top waits
    rw [List.mem_singleton.mp waits]
    rfl
  · intro _ above base _ last _
    rw [List.getLast?_cons_cons]
    exact last

/-- Whatever the links of a database, the bases of a class are drawn by a recursion that ends,
in one way. If the classes below a class have plain names, the printed tree shows its lineage. -/
theorem prints_lineage (known : db.classAt? id = some entity)
    (plain : ∀ other definition, db.Reaches id other → db.classAt? other = some definition →
      Plain definition.name) :
    ∃ drawn, (∀ row after, db.Draws [] [] [id] row after ↔ row = drawn ∧ after = db.lineage id) ∧
      db.PrintsLineage id (bases db id) drawn ∧
      ∀ input, Asks db input id → eval db input = .text (bases db id) := by
  obtain ⟨draws, -⟩ := exists_draws_tree known
  have lineage : ((nodes (tree db id)).filter fun node => !node.repeated).map Node.id =
      db.lineage id := by
    have row := draws.after_eq
    rw [List.nil_append] at row
    exact row.symm
  have shows_ := forall₂_shown known plain
  refine ⟨nodes (tree db id), fun _ _ => draws_iff known, ?_, fun _ => eval_of_asks⟩
  constructor
  · exact shows_
  · exact fun node member => ⟨draws.getLast?_path member, draws.isChain member⟩
  · exact lineage
  · rw [names_of_shown shows_, lineage]
    rfl
  · exact (db.walks_lineage id).nodup List.nodup_nil

theorem prints_lineage_mutual :
    Mutual.database.classAt? 0 = some Mutual.a ∧ Plain "A" ∧ Plain "B" ∧
      Mutual.database.PrintsLineage 0 (bases Mutual.database 0)
        [⟨[], 0, false⟩, ⟨[0], 0, true⟩, ⟨[0], 1, false⟩, ⟨[1, 0], 0, true⟩] := by
  have known : Mutual.database.classAt? 0 = some Mutual.a := rfl
  have first : Plain "A" := by decide
  have second : Plain "B" := by decide
  have plain : ∀ other definition, Mutual.database.Reaches 0 other →
      Mutual.database.classAt? other = some definition → Plain definition.name := by
    intro other definition _ found
    have few : other.toNat < 2 := lt_size_of_classAt? found
    have one : other = 0 ∨ other = 1 := by
      simp only [← UInt32.toNat_inj, UInt32.toNat_ofNat]
      omega
    rcases one with rfl | rfl
    · cases found
      exact first
    · cases found
      exact second
  obtain ⟨drawn, only, printed, -⟩ := prints_lineage known plain
  obtain ⟨rfl, -⟩ := (only _ _).mp draws_mutual
  exact ⟨known, first, second, printed⟩

end Database
end EntitySchema
