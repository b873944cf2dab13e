import QueryConsole.Proofs.Statement.SelectLine

/-! Columns that count the rows of one category, or of none of a list.  Their texts are read back to
the column and the values that they compare. -/

namespace QueryConsole

open Lexeme (Reads)

/-- Which rows a column counts: those with the value, or those with none of the values. -/
inductive Tally : Type
  | one : (column value : String) → Tally
  | others : (column : String) → (values : List String) → Tally
  deriving DecidableEq

namespace Tally

def counts (row : String → String) : Tally → Bool
  | .one column value => row column == value
  | .others column values => !values.contains (row column)

def literals? : List Lexeme → Option (List String)
  | [.literal value, .sign ')', .sign ')'] => some [value]
  | .literal value :: .sign ',' :: rest => (literals? rest).map (value :: ·)
  | _ => none

def ofLexemes? : List Lexeme → Option Tally
  | [.word "countIf", .sign '(', .word column, .sign '=', .literal value, .sign ')'] =>
    some (.one column value)
  | .word "countIf" :: .sign '(' :: .word column :: .word "NOT" :: .word "IN" :: .sign '(' ::
      rest => (literals? rest).map (.others column)
  | _ => none

def column : Tally → Column
  | .one column value => .countOf column value
  | .others column values => .countOthers column values

def label : Tally → String
  | .one _ value => value
  | .others .. => "Other"

def expression : Tally → List Lexeme
  | .one column value =>
    [.word "countIf", .sign '(', .word column, .sign '=', .literal value, .sign ')']
  | .others column values =>
    [.word "countIf", .sign '(', .word column, .word "NOT", .word "IN", .sign '('] ++
      [.sign ','].intercalate (values.map fun value => [.literal value]) ++ [.sign ')', .sign ')']

inductive IsReadable : Tally → Prop
  | one {column value : String} : Text.IsWord column → column ≠ "AS" → '\x60' ∉ value.toList →
    IsReadable (.one column value)
  | others {column : String} {values : List String} : Text.IsWord column → column ≠ "AS" →
    values ≠ [] → IsReadable (.others column values)

theorem literals?_intercalate {values : List String} (hne : values ≠ []) :
    literals? ([.sign ','].intercalate (values.map fun value => [.literal value]) ++
      [.sign ')', .sign ')']) = some values := by
  induction values with
  | nil => exact absurd rfl hne
  | cons value values ih =>
    cases values with
    | nil => rfl
    | cons value' values =>
      have hrest := ih (List.cons_ne_nil _ _)
      rw [List.map_cons] at hrest
      rw [List.map_cons, List.map_cons, List.intercalate_cons_cons]
      simp only [List.cons_append, List.nil_append, literals?, hrest, Option.map_some]

theorem word_notMem_intercalate (w : String) (values : List String) :
    Lexeme.word w ∉ [.sign ','].intercalate (values.map fun value => [.literal value]) := by
  induction values with
  | nil => nofun
  | cons value values ih =>
    cases values with
    | nil => simp
    | cons value' values =>
      rw [List.map_cons] at ih
      rw [List.map_cons, List.map_cons, List.intercalate_cons_cons]
      simp only [List.mem_append, List.mem_singleton, reduceCtorEq, false_or, ih,
        not_false_eq_true]

namespace IsReadable

variable {t : Tally}

theorem ofLexemes?_expression (h : t.IsReadable) : ofLexemes? t.expression = some t := by
  cases h with
  | one hword hne hvalue => rfl
  | others hword hne hvalues =>
    simp only [expression, List.cons_append, List.nil_append, ofLexemes?,
      literals?_intercalate hvalues, Option.map_some]

theorem as_notMem_expression (h : t.IsReadable) : .word "AS" ∉ t.expression := by
  cases h with
  | one hword hne hvalue => simp [expression, Ne.symm hne]
  | others hword hne hvalues => simp [expression, Ne.symm hne, word_notMem_intercalate]

theorem reads (h : t.IsReadable) :
    Reads t.column.text (t.expression ++ [.word "AS", .name t.label]) := by
  have hopen : Reads "countIf(" [.word "countIf", .sign '('] := by decide
  cases h with
  | @one column value hword hne hvalue =>
    have hequals : Reads " = " [.sign '='] := by decide
    have hclose : Reads ") AS " [.sign ')', .word "AS"] := by decide
    have hrest := (hequals.append (.quoteLiteral value)).append (hclose.append (.name hvalue))
    have htext : (Column.countOf column value).text =
        "countIf(" ++ (column ++
          (" = " ++ quoteLiteral value ++ (") AS " ++ ("`" ++ value ++ "`")))) := by
      have hlabel : ") AS `" = ") AS " ++ "`" := by decide
      simp only [Column.text, hlabel, String.append_assoc]
    rw [Tally.column, htext]
    exact hopen.append (.word hword hrest (by simp [Text.isWordChar]))
  | @others column values hword hne hvalues =>
    have hin : Reads " NOT IN (" [.word "NOT", .word "IN", .sign '('] := by decide
    have hlist : Reads (", ".intercalate (values.map quoteLiteral))
        ([.sign ','].intercalate (values.map fun value => [.literal value])) :=
      .intercalate fun value _ => .quoteLiteral value
    have hclose : Reads ")) AS `Other`"
        [.sign ')', .sign ')', .word "AS", .name "Other"] := by
      decide
    have htext : (Column.countOthers column values).text =
        "countIf(" ++ (column ++ (" NOT IN (" ++ (", ".intercalate (values.map quoteLiteral) ++
          ")) AS `Other`"))) := by
      simp only [Column.text, String.append_assoc]
    have hread := hopen.append (.word hword (hin.append (hlist.append hclose))
      (by simp [Text.isWordChar]))
    rw [Tally.column, htext]
    simpa [expression, label] using hread

end IsReadable

end Tally

def bucketExpression (column : String) (b : Bucket) : List Lexeme :=
  [.word "toStartOfInterval", .sign '(', .word column, .sign ',', .word "INTERVAL", .word "1",
    .word b.name.toUpper, .sign ')']

theorem reads_bucketColumn {column : String} (h : Text.IsWord column) (b : Bucket) :
    Reads ((bucketColumn column b).text ++ ", ")
      (bucketExpression column b ++ [.word "AS", .word "bucket"] ++ [.sign ',']) := by
  have hopen : Reads "toStartOfInterval(" [.word "toStartOfInterval", .sign '('] := by decide
  have hrest : Reads (", " ++ b.interval ++ ") AS bucket, ")
      [.sign ',', .word "INTERVAL", .word "1", .word b.name.toUpper, .sign ')', .word "AS",
        .word "bucket", .sign ','] := by
    cases b <;> decide +kernel
  have htext : (bucketColumn column b).text ++ ", " =
      "toStartOfInterval(" ++ (column ++ (", " ++ b.interval ++ ") AS bucket, ")) := by
    have hlabel : ") AS bucket, " = ")" ++ " AS " ++ "bucket" ++ ", " := by decide
    simp only [bucketColumn, Column.text, hlabel, String.append_assoc]
  rw [htext]
  exact hopen.append (.word h hrest (by cases b <;> decide +kernel))

theorem as_notMem_bucketExpression {column : String} (h : column ≠ "AS") (b : Bucket) :
    .word "AS" ∉ bucketExpression column b := by
  have hname : b.name.toUpper ≠ "AS" := by cases b <;> decide +kernel
  simp [bucketExpression, Ne.symm h, Ne.symm hname]

def Statement.series? (s : Statement) : Option (List (String × Option Tally)) :=
  s.columns?.map fun columns => columns.map fun column => (column.2, Tally.ofLexemes? column.1)

def timesCounted (series : List (String × Option Tally)) (row : String → String) : Nat :=
  series.countP fun column => column.2.any (·.counts row)

end QueryConsole
