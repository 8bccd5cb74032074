import EntitySchema.CommandLine.Arguments
import Mathlib.Data.List.Basic

/-! Arguments in any arrangement. Options may stand anywhere among the command word and its
operands, whose order is all that counts; what comes of them is the configuration that was meant,
and one operand too many or too few is an error. -/
namespace EntitySchema.CommandLine

/-- What the arguments consist of, as long as they ask for neither help nor the version. -/
inductive Item where
  | operand (text : String)
  | verbose (long : Bool)
  | root (directory : String)

namespace Item

/-- The arguments that an item is written as. -/
def words : Item → List String
  | .operand text => [text]
  | .verbose long => [if long then "--verbose" else "-v"]
  | .root directory => ["--root", directory]

def operand? : Item → Option String
  | .operand text => some text
  | _ => none

def directory? : Item → Option String
  | .root directory => some directory
  | _ => none

def isVerbose : Item → Bool
  | .verbose _ => true
  | _ => false

/-- What an item sets. -/
def set (configuration : Configuration) : Item → Configuration
  | .operand _ => configuration
  | .verbose _ => { configuration with verbose := true }
  | .root directory => { configuration with root := some directory }

end Item

/-- The arguments that a row of items is written as. -/
def written (items : List Item) : List String := items.flatMap Item.words

/-- The operands among the items, the command word included. -/
def operandsOf (items : List Item) : List String := items.filterMap Item.operand?

/-- What a command still needs when its last operand is missing. -/
def Command.lastNeed : Command → String
  | .check _ | .decode _ | .inspect _ => "an input file"
  | .encode _ _ | .snapshot _ _ => "an output file"

variable {items : List Item} {item : Item} {configuration : Configuration}
  {operands rest : List String} {text : String}

section Scanning

theorem isOption_eq_false_iff :
    isOption text = false ↔ text.toList.head? ≠ some '-' ∨ text = "-" := by
  have dash : text.toList = ['-'] ↔ text = "-" := @String.toList_inj text "-"
  simp only [isOption, Bool.and_eq_false_iff, beq_eq_false_iff_ne, bne_eq_false_iff_eq, dash]

/-- A word that is no option takes the last place among the operands. -/
theorem scan_operand (plain : isOption text = false) :
    scan configuration operands (text :: rest) = scan configuration (text :: operands) rest := by
  rw [scan.eq_def]
  dsimp only
  split
  case h_8 => rw [plain, if_neg Bool.false_ne_true]
  -- all words that have a meaning of their own are options
  all_goals exact absurd plain (by decide)

/-- What one item does, whatever stands around it. -/
theorem scan_item (plain : ∀ text, item = .operand text → isOption text = false) :
    scan configuration operands (item.words ++ rest) =
      scan (item.set configuration) (item.operand?.toList ++ operands) rest := by
  cases item with
  | operand text => exact scan_operand (plain text rfl)
  | verbose long =>
    cases long with
    | false => rfl
    | true => rfl
  | root directory => rfl

/-- What a row of items does. -/
theorem scan_written (plain : ∀ text, .operand text ∈ items → isOption text = false) :
    scan configuration operands (written items) =
      .ok (items.foldl Item.set configuration, operands.reverse ++ operandsOf items) := by
  induction items generalizing configuration operands with
  | nil => simp [written, scan, operandsOf]
  | cons item items ih =>
    have first : ∀ text, item = .operand text → isOption text = false := by
      rintro text rfl
      exact plain text List.mem_cons_self
    have others : ∀ text, .operand text ∈ items → isOption text = false := fun text member =>
      plain text (List.mem_cons_of_mem _ member)
    rw [written, List.flatMap_cons, scan_item first, ← written, ih others]
    cases item with
    | operand text => simp [Item.operand?, Item.set, operandsOf]
    | verbose long => rfl
    | root directory => rfl

/-- The options count wherever they stand; of several directories it is the last one. -/
theorem foldl_set (items : List Item) (configuration : Configuration) :
    items.foldl Item.set configuration =
      { configuration with
        verbose := configuration.verbose || items.any Item.isVerbose
        root := (items.filterMap Item.directory?).getLast?.or configuration.root } := by
  induction items generalizing configuration with
  | nil => simp
  | cons item items ih =>
    rw [List.foldl_cons, ih]
    cases item with
    | operand text => rfl
    | verbose long => simp [Item.set, Item.isVerbose, Item.directory?]
    | root directory => simp [Item.set, Item.isVerbose, Item.directory?, List.getLast?_cons]

end Scanning

section Configuring

theorem operandsOf_append (front back : List Item) :
    operandsOf (front ++ back) = operandsOf front ++ operandsOf back :=
  List.filterMap_append ..

theorem operandsOf_concat (items : List Item) (extra : String) :
    operandsOf (items ++ [.operand extra]) = operandsOf items ++ [extra] :=
  operandsOf_append items [.operand extra]

theorem written_concat (items : List Item) (extra : String) :
    written (items ++ [.operand extra]) = written items ++ [extra] :=
  List.flatMap_append

/-- Without the last operand among the items, the operands are those before it. -/
theorem operandsOf_remove {front back : List Item} {last : String} (none : operandsOf back = []) :
    operandsOf (front ++ back) = (operandsOf (front ++ .operand last :: back)).dropLast := by
  have behind : operandsOf (.operand last :: back) = [last] := congrArg (last :: ·) none
  rw [operandsOf_append, operandsOf_append, none, behind, List.append_nil, List.dropLast_concat]

theorem mem_operandsOf : text ∈ operandsOf items ↔ .operand text ∈ items := by
  rw [operandsOf, List.mem_filterMap]
  constructor
  · rintro ⟨item, member, same⟩
    cases item with
    | operand other => rwa [← Option.some.inj same]
    | verbose long => cases same
    | root directory => cases same
  · intro member
    exact ⟨.operand text, member, rfl⟩

/-- The configuration that the items ask for, up to the command, which the operands make up. -/
theorem configure_written {name : String} (row : operandsOf items = name :: operands)
    (plain : ∀ text ∈ name :: operands, isOption text = false) :
    configure (written items) = (command? name operands).map fun command =>
      ⟨some command, items.any Item.isVerbose,
        (items.filterMap Item.directory?).getLast?, false, false⟩ := by
  have scanned : ∀ configuration, scan configuration [] (written items) =
      .ok (items.foldl Item.set configuration, name :: operands) := by
    intro configuration
    rw [scan_written, row]
    · rfl
    · intro text member
      exact plain text (row ▸ mem_operandsOf.mpr member)
  cases made : command? name operands with
  | error problem => simp [configure, scanned, foldl_set, made, bind, Except.bind, Except.map]
  | ok command =>
    simp [configure, scanned, foldl_set, made, bind, Except.bind, pure, Except.pure, Except.map]

variable (command : Command)

theorem isOption_name : isOption command.name = false := by
  have names : ∀ name ∈ ["check", "encode", "decode", "snapshot", "inspect"],
      isOption name = false := by decide
  apply names
  cases command <;> simp [Command.name]

theorem operands_ne_nil : command.operands ≠ [] := by
  cases command <;> exact List.cons_ne_nil _ _

theorem command?_operands : command? command.name command.operands = .ok command := by
  cases command <;> rfl

theorem command?_concat (extra : String) :
    command? command.name (command.operands ++ [extra]) = .error (.unexpectedArgument extra) := by
  cases command <;> rfl

theorem command?_dropLast : command? command.name command.operands.dropLast =
    .error (.missingArgument command.name command.lastNeed) := by
  cases command <;> rfl

/-- Options may be put anywhere among the words of a command, verbosity as often as one likes,
and of several directories the last one counts. An operand more is one that is not expected, and
without its last one the command lacks it. -/
theorem configure_arrangement (command : Command) (verbose : Bool) (root : Option String)
    (items : List Item)
    (proper : ∀ text ∈ command.operands, text.toList.head? ≠ some '-' ∨ text = "-")
    (row : operandsOf items = command.name :: command.operands)
    (marked : items.any Item.isVerbose = verbose)
    (rooted : (items.filterMap Item.directory?).getLast? = root) :
    configure (written items) = .ok ⟨some command, verbose, root, false, false⟩ ∧
      (∀ extra : String, extra.toList.head? ≠ some '-' ∨ extra = "-" →
        configure (written items ++ [extra]) = .error (.unexpectedArgument extra)) ∧
      ∀ front last back, items = front ++ .operand last :: back → operandsOf back = [] →
        configure (written (front ++ back)) =
          .error (.missingArgument command.name command.lastNeed) := by
  have plain : ∀ text ∈ command.name :: command.operands, isOption text = false := by
    intro text member
    rcases List.mem_cons.mp member with rfl | operand
    · exact isOption_name command
    · exact isOption_eq_false_iff.mpr (proper text operand)
  refine ⟨?_, ?_, ?_⟩
  · rw [configure_written row plain, command?_operands, marked, rooted]
    rfl
  · intro extra apart
    have longer : operandsOf (items ++ [.operand extra]) =
        command.name :: (command.operands ++ [extra]) := by
      rw [operandsOf_concat, row, List.cons_append]
    rw [← written_concat, configure_written longer, command?_concat]
    · rfl
    · intro text member
      rw [← List.cons_append, List.mem_append, List.mem_singleton] at member
      rcases member with known | rfl
      · exact plain text known
      · exact isOption_eq_false_iff.mpr apart
  · rintro front last back rfl none
    have shorter : operandsOf (front ++ back) = command.name :: command.operands.dropLast := by
      rw [operandsOf_remove none, row, List.dropLast_cons_of_ne_nil (operands_ne_nil command)]
    rw [configure_written shorter, command?_dropLast]
    · rfl
    · intro text member
      apply plain
      rcases List.mem_cons.mp member with rfl | operand
      · exact List.mem_cons_self
      · exact List.mem_cons_of_mem _ (List.dropLast_subset _ operand)

theorem configure_arrangement_dashes :
    configure ["-v", "encode", "--root", "--help", "-", "--verbose", "a.bin"] =
        .ok ⟨some (.encode "-" "a.bin"), true, some "--help", false, false⟩ ∧
      configure ["-v", "encode", "--root", "--help", "-", "--verbose", "a.bin", "-"] =
        .error (.unexpectedArgument "-") ∧
      configure ["-v", "encode", "--root", "--help", "-", "--verbose"] =
        .error (.missingArgument "encode" "an output file") := by
  obtain ⟨same, longer, shorter⟩ := configure_arrangement (.encode "-" "a.bin") true
    (some "--help") [.verbose false, .operand "encode", .root "--help", .operand "-",
      .verbose true, .operand "a.bin"] (by decide) rfl rfl rfl
  exact ⟨same, longer "-" (.inr rfl), shorter [.verbose false, .operand "encode",
    .root "--help", .operand "-", .verbose true] "a.bin" [] rfl rfl⟩

end Configuring

end EntitySchema.CommandLine
