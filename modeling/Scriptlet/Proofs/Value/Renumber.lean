import Scriptlet.Evaluation

set_option autoImplicit false

/-!
Functions made anew under other numbers. Each definition that is evaluated makes a function with a
number of its own, by which alone functions are told apart. `Value.renumber` gives the functions in a
value other numbers. If different numbers stay different, then no operation on values notices: what it
gives for renumbered values is what it gave for the values themselves, renumbered.
-/

namespace Scriptlet

mutual

/-- A value with other numbers for the functions in it. Bodies of functions are no part of the value. -/
def Value.renumber (f : Nat → Nat) : Value → Value
  | .null => .null
  | .bool b => .bool b
  | .int n => .int n
  | .float x => .float x
  | .complex re im => .complex re im
  | .str s => .str s
  | .list items => .list (Value.renumberItems f items)
  | .obj entries => .obj (Value.renumberEntries f entries)
  | .builtin g => .builtin g
  | .function serial address name params body => .function (f serial) address name params body
  | .node e => .node (Expr.renumber f e)

def Value.renumberItems (f : Nat → Nat) : List Value → List Value
  | [] => []
  | v :: rest => v.renumber f :: Value.renumberItems f rest

def Value.renumberEntries (f : Nat → Nat) : List (String × Value) → List (String × Value)
  | [] => []
  | (key, v) :: rest => (key, v.renumber f) :: Value.renumberEntries f rest

/-- Of an expression only those parts are renumbered that can be taken out of it as values. -/
def Expr.renumber (f : Nat → Nat) : Expr → Expr
  | .datum v => .datum (v.renumber f)
  | .literal kind v => .literal kind (v.renumber f)
  | .ident name => .ident name
  | .property name index => .property name index
  | .unary operator operand => .unary operator (operand.renumber f)
  | .binary operator left right => .binary operator left right
  | .assign binding name value => .assign binding name (value.renumber f)
  | .call name args => .call name args
  | .define name params body => .define name params body
  | .param p => .param p
  | .ret value => .ret (value.renumber f)
  | .conditional keyword condition body otherwise => .conditional keyword condition body otherwise
  | .module parents name => .module parents name

end

mutual

theorem Value.renumber_id : ∀ v : Value, v.renumber id = v
  | .null | .bool _ | .int _ | .float _ | .complex .. | .str _ | .builtin _ | .function .. => by
      simp only [Value.renumber, id]
  | .list items => by rw [Value.renumber, Value.renumberItems_id items]
  | .obj entries => by rw [Value.renumber, Value.renumberEntries_id entries]
  | .node e => by rw [Value.renumber, Expr.renumber_id e]

theorem Value.renumberItems_id : ∀ items : List Value, Value.renumberItems id items = items
  | [] => rfl
  | v :: rest => by rw [Value.renumberItems, Value.renumber_id v, Value.renumberItems_id rest]

theorem Value.renumberEntries_id : ∀ entries : List (String × Value),
    Value.renumberEntries id entries = entries
  | [] => rfl
  | (key, v) :: rest => by
      rw [Value.renumberEntries, Value.renumber_id v, Value.renumberEntries_id rest]

theorem Expr.renumber_id : ∀ e : Expr, e.renumber id = e
  | .datum v => by rw [Expr.renumber, Value.renumber_id v]
  | .literal kind v => by rw [Expr.renumber, Value.renumber_id v]
  | .unary operator operand => by rw [Expr.renumber, Expr.renumber_id operand]
  | .assign binding name value => by rw [Expr.renumber, Expr.renumber_id value]
  | .ret value => by rw [Expr.renumber, Expr.renumber_id value]
  | .ident _ | .property .. | .binary .. | .call .. | .define .. | .param _ | .conditional ..
  | .module .. => by rw [Expr.renumber]

end

mutual

theorem Value.renumber_renumber (f g : Nat → Nat) :
    ∀ v : Value, (v.renumber f).renumber g = v.renumber (g ∘ f)
  | .null | .bool _ | .int _ | .float _ | .complex .. | .str _ | .builtin _ | .function .. => by
      simp only [Value.renumber, Function.comp]
  | .list items => by simp only [Value.renumber, Value.renumberItems_renumberItems f g items]
  | .obj entries => by simp only [Value.renumber, Value.renumberEntries_renumberEntries f g entries]
  | .node e => by simp only [Value.renumber, Expr.renumber_renumber f g e]

theorem Value.renumberItems_renumberItems (f g : Nat → Nat) : ∀ items : List Value,
    Value.renumberItems g (Value.renumberItems f items) = Value.renumberItems (g ∘ f) items
  | [] => rfl
  | v :: rest => by
      simp only [Value.renumberItems, Value.renumber_renumber f g v,
        Value.renumberItems_renumberItems f g rest]

theorem Value.renumberEntries_renumberEntries (f g : Nat → Nat) :
    ∀ entries : List (String × Value),
      Value.renumberEntries g (Value.renumberEntries f entries) = Value.renumberEntries (g ∘ f) entries
  | [] => rfl
  | (key, v) :: rest => by
      simp only [Value.renumberEntries, Value.renumber_renumber f g v,
        Value.renumberEntries_renumberEntries f g rest]

theorem Expr.renumber_renumber (f g : Nat → Nat) :
    ∀ e : Expr, (e.renumber f).renumber g = e.renumber (g ∘ f)
  | .datum v => by simp only [Expr.renumber, Value.renumber_renumber f g v]
  | .literal kind v => by simp only [Expr.renumber, Value.renumber_renumber f g v]
  | .unary operator operand => by simp only [Expr.renumber, Expr.renumber_renumber f g operand]
  | .assign binding name value => by simp only [Expr.renumber, Expr.renumber_renumber f g value]
  | .ret value => by simp only [Expr.renumber, Expr.renumber_renumber f g value]
  | .ident _ | .property .. | .binary .. | .call .. | .define .. | .param _ | .conditional ..
  | .module .. => by simp only [Expr.renumber]

end

namespace Value

variable {f : Nat → Nat}

theorem renumberItems_eq_map (items : List Value) : renumberItems f items = items.map (renumber f) := by
  induction items with
  | nil => rfl
  | cons v rest ih => rw [renumberItems, ih, List.map_cons]

@[simp] theorem renumber_list (items : List Value) :
    (list items).renumber f = list (items.map (renumber f)) := by
  rw [renumber, renumberItems_eq_map]

@[simp] theorem renumber_obj (entries : List (String × Value)) :
    (obj entries).renumber f = obj (renumberEntries f entries) := by
  rw [renumber]

@[simp] theorem renumber_str (s : String) : (str s).renumber f = str s := by rw [renumber]

@[simp] theorem renumber_int (n : Int) : (int n).renumber f = int n := by rw [renumber]

@[simp] theorem renumber_null : null.renumber f = null := by rw [renumber]

section Shape

@[simp] theorem kind_renumber (v : Value) : (v.renumber f).kind = v.kind := by
  cases v with
  | node e => cases e <;> simp only [renumber, Expr.renumber, kind]
  | _ => simp only [renumber, kind]

@[simp] theorem num?_renumber (v : Value) : num? (v.renumber f) = num? v := by
  cases v <;> simp only [renumber, num?]

@[simp] theorem count?_renumber (v : Value) : count? (v.renumber f) = count? v := by
  cases v <;> simp only [renumber, count?]

@[simp] theorem isSequence_renumber (v : Value) : (v.renumber f).isSequence = v.isSequence := by
  cases v <;> simp only [renumber, isSequence]

@[simp] theorem typeName?_renumber (v : Value) : (v.renumber f).typeName? = v.typeName? := by
  cases v <;> simp only [renumber, typeName?]

@[simp] theorem isEmpty_renumberEntries (entries : List (String × Value)) :
    (renumberEntries f entries).isEmpty = entries.isEmpty := by
  cases entries <;> simp [renumberEntries]

@[simp] theorem truthy_renumber (v : Value) : (v.renumber f).truthy = v.truthy := by
  cases v with
  | list items => cases items <;> simp [truthy]
  | obj entries => simp [truthy]
  | _ => simp only [renumber, truthy]

@[simp] theorem ofNum_renumber (n : Number.Num) : (ofNum n).renumber f = ofNum n := by
  cases n <;> simp only [ofNum, renumber]

@[simp] theorem truth_renumber (b : Bool) : (truth b).renumber f = truth b := by
  rw [truth, renumber_str]

@[simp] theorem length_renumberEntries (entries : List (String × Value)) :
    (renumberEntries f entries).length = entries.length := by
  induction entries with
  | nil => rfl
  | cons e rest ih => simp [renumberEntries, ih]

@[simp] theorem atKey?_renumber (key : String) (entries : List (String × Value)) :
    atKey? key (renumberEntries f entries) = (atKey? key entries).map (renumber f) := by
  induction entries with
  | nil => rfl
  | cons e rest ih =>
      obtain ⟨k, v⟩ := e
      by_cases here : k = key <;> simp [renumberEntries, atKey?, here, ih]

end Shape

mutual

theorem quoted_renumber : ∀ v : Value, (v.renumber f).quoted = v.quoted
  | .null | .bool _ | .int _ | .float _ | .complex .. | .str _ | .builtin _ | .function .. => by
      simp only [renumber, quoted]
  | .list items => by rw [renumber, quoted, quoted, quotedItems_renumber items]
  | .obj entries => by rw [renumber, quoted, quoted, quotedEntries_renumber entries]
  | .node e => by
      have kind := kind_renumber (f := f) (.node e)
      rw [renumber] at kind ⊢
      rw [quoted, quoted, kind]

theorem quotedItems_renumber : ∀ items : List Value,
    quotedItems (renumberItems f items) = quotedItems items
  | [] => rfl
  | v :: rest => by
      rw [renumberItems, quotedItems, quotedItems, quoted_renumber v, quotedItems_renumber rest]

theorem quotedEntries_renumber : ∀ entries : List (String × Value),
    quotedEntries (renumberEntries f entries) = quotedEntries entries
  | [] => rfl
  | (key, v) :: rest => by
      rw [renumberEntries, quotedEntries, quotedEntries, quoted_renumber v,
        quotedEntries_renumber rest]

end

@[simp] theorem text_renumber (v : Value) : (v.renumber f).text = v.text := by
  cases v with
  | str s => rw [renumber_str]
  | _ => exact quoted_renumber _

mutual

/-- Equality tells functions apart by their numbers, and so it needs them to stay different. -/
theorem equal_renumber (distinct : Function.Injective f) :
    ∀ v w : Value, (v.renumber f).equal (w.renumber f) = v.equal w
  | .null, w | .str _, w | .builtin _, w => by cases w <;> simp only [renumber, equal]
  | .bool _, w | .int _, w | .float _, w | .complex .., w => by
      simp only [renumber, equal, equalNum, num?_renumber]
  | .function serial _ _ _ _, w => by
      cases w with
      | function serial' _ _ _ _ =>
          simp only [renumber, equal]
          by_cases same : serial = serial'
          · simp [same]
          · have apart : f serial ≠ f serial' := fun equal => same (distinct equal)
            rw [beq_eq_false_iff_ne.mpr apart, beq_eq_false_iff_ne.mpr same]
      | _ => simp only [renumber, equal]
  | .list items, w => by
      cases w with
      | list others => simp only [renumber, equal, equalItems_renumber distinct items others]
      | _ => simp only [renumber, equal]
  | .obj entries, w => by
      cases w with
      | obj others =>
          simp only [renumber, equal, length_renumberEntries,
            equalEntries_renumber distinct entries others]
      | _ => simp only [renumber, equal]
  | .node e, w => by simp only [renumber, equal]

theorem equalItems_renumber (distinct : Function.Injective f) : ∀ items others : List Value,
    equalItems (renumberItems f items) (renumberItems f others) = equalItems items others
  | [], [] | [], _ :: _ | _ :: _, [] => by simp only [renumberItems, equalItems]
  | v :: rest, w :: rest' => by
      simp only [renumberItems, equalItems, equal_renumber distinct v w,
        equalItems_renumber distinct rest rest']

theorem equalEntries_renumber (distinct : Function.Injective f) :
    ∀ entries others : List (String × Value),
      equalEntries (renumberEntries f entries) (renumberEntries f others) =
        equalEntries entries others
  | [], others => by simp only [renumberEntries, equalEntries]
  | (key, v) :: rest, others => by
      simp only [renumberEntries, equalEntries, equalEntries_renumber distinct rest others,
        atKey?_renumber]
      cases atKey? key others with
      | none => rfl
      | some w => simp only [Option.map_some, equal_renumber distinct v w]

end

theorem equal_str_renumber (v : Value) (s : String) :
    (v.renumber f).equal (str s) = v.equal (str s) := by
  cases v <;> simp [renumber, equal, equalNum, num?]

theorem equal_bool_renumber (v : Value) (b : Bool) :
    (v.renumber f).equal (bool b) = v.equal (bool b) := by
  cases v <;> simp [renumber, equal, equalNum, num?]

theorem equal_null_renumber (v : Value) : (v.renumber f).equal null = v.equal null := by
  cases v <;> simp [renumber, equal, equalNum, num?]

/-- How numbers are ordered; kinds that are no numbers are named in the fault. -/
def relatedNumbers (r : Relation) (n m : Option Number.Num) (left right : String) :
    Except Fault Bool :=
  match n, m with
  | some n, some m =>
    match n.order? m with
    | some (some o) => .ok (r.admits o)
    | some none => .ok false
    | none => .error (.notOrdered r.symbol left right)
  | _, _ => .error (.notOrdered r.symbol left right)

theorem related_of_not_sequence (r : Relation) {v : Value} (single : v.isSequence = false) (w : Value) :
    related r v w = relatedNumbers r (num? v) (num? w) v.kind w.kind := by
  cases v with
  | str s => cases single
  | list items => cases single
  | _ => rfl

mutual

theorem related_renumber (distinct : Function.Injective f) (r : Relation) :
    ∀ v w : Value, related r (v.renumber f) (w.renumber f) = related r v w
  | .str s, w => by
      cases w with
      | str t => simp only [renumber]
      | node e =>
          have same := kind_renumber (f := f) (.node e)
          rw [renumber] at same ⊢
          simp only [renumber, related, same]
      | _ => simp only [renumber, related, kind]
  | .list items, w => by
      cases w with
      | list others => simp only [renumber, related, relatedItems_renumber distinct r items others]
      | node e =>
          have same := kind_renumber (f := f) (.node e)
          rw [renumber] at same
          simp only [renumber, related, same]
      | _ => simp only [renumber, related, kind]
  | .null, w | .bool _, w | .int _, w | .float _, w | .complex .., w | .obj _, w | .builtin _, w
  | .function .., w | .node _, w => by
      rw [related_of_not_sequence r (by rw [isSequence_renumber]; rfl), related_of_not_sequence r rfl]
      simp only [kind_renumber, num?_renumber]

theorem relatedItems_renumber (distinct : Function.Injective f) (r : Relation) :
    ∀ items others : List Value,
      relatedItems r (renumberItems f items) (renumberItems f others) = relatedItems r items others
  | [], [] | _ :: _, [] => by simp only [renumberItems, relatedItems]
  | [], _ :: others => by
      simp only [renumberItems, relatedItems, renumberItems_eq_map, List.length_cons, List.length_map]
  | v :: rest, w :: rest' => by
      simp only [renumberItems, relatedItems, equal_renumber distinct v w,
        related_renumber distinct r v w, relatedItems_renumber distinct r rest rest']

end

theorem repeatItems_map {α β : Type} (g : α → β) (items : List α) (times : Int) (tooLong : Fault) :
    repeatItems (items.map g) times tooLong = (repeatItems items times tooLong).map (List.map g) := by
  simp only [repeatItems, List.length_map, List.isEmpty_map]
  split
  · rfl
  · split
    · rfl
    · split
      · rfl
      · split
        · rfl
        · simp only [Except.map, List.map_flatten, List.map_replicate]

theorem repeated_renumber (times : Int) (v : Value) :
    repeated times (v.renumber f) = (repeated times v).map (Except.map (renumber f)) := by
  cases v with
  | str s =>
      simp only [renumber, repeated, Option.map_some]
      cases repeatItems s.toList times (.overflow .repeatedText) with
      | ok r => simp [Except.map, bind, Except.bind, pure, Except.pure]
      | error fault => rfl
  | list items =>
      simp only [renumber_list, repeated, repeatItems_map, Option.map_some]
      cases repeatItems items times .outOfMemory with
      | ok r => simp [Except.map, bind, Except.bind, pure, Except.pure]
      | error fault => rfl
  | _ => simp only [renumber, repeated, Option.map_none]

theorem map_ofNum (o : Except Fault Number.Num) : (ofNum <$> o).map (renumber f) = ofNum <$> o := by
  cases o with
  | ok n => simp [Except.map, Functor.map]
  | error fault => rfl

theorem numeric_renumber (symbol : String)
    (g : Number.Num → Number.Num → Option (Except Fault Number.Num)) (v w : Value) :
    numeric symbol g (v.renumber f) (w.renumber f) = (numeric symbol g v w).map (renumber f) := by
  simp only [numeric, num?_renumber, kind_renumber]
  split
  · split
    · exact (map_ofNum _).symm
    · rfl
  · rfl

theorem sub_renumber (v w : Value) :
    (v.renumber f).sub (w.renumber f) = (v.sub w).map (renumber f) :=
  numeric_renumber "-" _ v w

theorem add_of_not_sequence {v : Value} (single : v.isSequence = false) (w : Value) :
    v.add w = numeric "+" (fun n m => some (n.add m)) v w := by
  cases v with
  | str s => cases single
  | list items => cases single
  | _ => rfl

theorem add_renumber (v w : Value) :
    (v.renumber f).add (w.renumber f) = (v.add w).map (renumber f) := by
  have kinds := kind_renumber (f := f) w
  by_cases single : v.isSequence = false
  · rw [add_of_not_sequence single, add_of_not_sequence (by rw [isSequence_renumber, single]),
      numeric_renumber]
  · cases v with
    | str s => cases w <;> simp_all [renumber, add, Except.map]
    | list items => cases w <;> simp_all [renumber, renumberItems_eq_map, add, Except.map]
    | _ => exact absurd rfl single

theorem mul_renumber (v w : Value) :
    (v.renumber f).mul (w.renumber f) = (v.mul w).map (renumber f) := by
  simp only [mul, num?_renumber, kind_renumber, isSequence_renumber, count?_renumber,
    repeated_renumber]
  split
  · exact (map_ofNum _).symm
  · split
    · split
      · cases repeated _ v <;> rfl
      · rfl
    · split
      · split
        · cases repeated _ w <;> rfl
        · rfl
      · rfl

end Value

theorem Operator.apply_renumber {f : Nat → Nat} (distinct : Function.Injective f) (op : Operator)
    (v w : Value) : op.apply (v.renumber f) (w.renumber f) = (op.apply v w).map (Value.renumber f) := by
  cases op with
  | add => exact Value.add_renumber v w
  | mul => exact Value.mul_renumber v w
  | sub => exact Value.sub_renumber v w
  | div => exact Value.numeric_renumber "/" (fun n m => some (n.div m)) v w
  | floorDiv => exact Value.numeric_renumber "//" _ v w
  | pow => exact Value.numeric_renumber "** or pow()" (fun n m => some (n.pow m)) v w
  | relation r =>
      simp only [apply, Value.related_renumber distinct]
      cases Value.related r v w with
      | ok b => simp [Except.map, Functor.map]
      | error fault => rfl
  | eq | ne => simp [apply, Value.equal_renumber distinct, Except.map]

theorem UnaryOperator.apply_renumber {f : Nat → Nat} (op : UnaryOperator) (v : Value) :
    op.apply (v.renumber f) = (op.apply v).map (Value.renumber f) := by
  have times := Value.mul_renumber (f := f) v (.int 2)
  have plus := Value.add_renumber (f := f) v (.int 1)
  have minus := Value.sub_renumber (f := f) v (.int 1)
  rw [Value.renumber_int] at times plus minus
  cases op with
  | truth => simp [apply, Except.map]
  | increment => exact plus
  | decrement => exact minus
  | negate =>
      simp only [apply, times]
      cases v.mul (.int 2) with
      | ok twice => exact Value.sub_renumber v twice
      | error fault => rfl
  | keep => cases v <;> simp [apply, Value.renumber, Except.map]

namespace Expr

variable {f : Nat → Nat}

theorem toValue_renumber (e : Expr) : (e.renumber f).toValue = e.toValue.renumber f := by
  cases e <;> simp only [renumber, toValue, Value.renumber]

end Expr

namespace Value

variable {f : Nat → Nat}

theorem inner?_renumber (e : Expr) : inner? (e.renumber f) = (inner? e).map (renumber f) := by
  cases e <;> simp only [Expr.renumber, inner?, Expr.toValue_renumber, Option.map_some, Option.map_none]

theorem unwrap_renumber (v : Value) : (v.renumber f).unwrap = v.unwrap.map (renumber f) := by
  cases v with
  | node e =>
      simp only [renumber, unwrap, inner?_renumber, Except.map]
      cases inner? e <;> simp [renumber]
  | obj entries =>
      simp only [renumber_obj, unwrap, atKey?_renumber]
      cases atKey? "value" entries <;> rfl
  | _ => simp [renumber, renumberItems_eq_map, unwrap, Except.map]

theorem contains_renumber (text : String) (v : Value) :
    (v.renumber f).contains text = v.contains text := by
  have kinds := kind_renumber (f := f) v
  cases v with
  | obj entries => simp [contains]
  | list items => simp [contains, equal_str_renumber, List.any_map, Function.comp_def]
  | str s => rw [renumber_str]
  | _ => simp_all [renumber, contains]

theorem subscript_renumber (key : String) (v : Value) :
    (v.renumber f).subscript key = (v.subscript key).map (renumber f) := by
  have kinds := kind_renumber (f := f) v
  cases v with
  | obj entries =>
      simp only [renumber_obj, subscript, atKey?_renumber]
      cases atKey? key entries <;> rfl
  | _ => simp_all [renumber, subscript, Except.map]

@[simp] theorem isTruthWord_renumber (v : Value) : (v.renumber f).isTruthWord = v.isTruthWord := by
  simp [isTruthWord, equal_str_renumber]

@[simp] theorem isOpen_renumber (v : Value) : (v.renumber f).isOpen = v.isOpen := by
  simp [isOpen, equal_str_renumber, equal_null_renumber]

theorem condition_renumber (v : Value) : (v.renumber f).condition = v.condition.map (renumber f) := by
  simp only [condition, isTruthWord_renumber, equal_bool_renumber, contains_renumber,
    subscript_renumber]
  split
  · rfl
  · split
    · simp [Except.map]
    · cases v.contains "type" with
      | error fault => rfl
      | ok has =>
          cases has with
          | false => simp [Except.map, bind, Except.bind, pure, Except.pure]
          | true =>
              cases v.subscript "type" with
              | error fault => rfl
              | ok type =>
                  simp only [Except.map, bind, Except.bind, pure, Except.pure, equal_str_renumber,
                    ↓reduceIte]
                  split
                  · simp
                  · split <;> simp

theorem orZero_renumber (v : Value) : (v.renumber f).orZero = v.orZero.renumber f := by
  simp only [orZero, truthy_renumber]
  split
  · rfl
  · rw [renumber]

theorem returned_renumber (v : Value) : (v.renumber f).returned = v.returned.renumber f := by
  simp [returned, renumberEntries]

theorem returnedWord_renumber (v : Value) :
    (v.renumber f).returnedWord = v.returnedWord.renumber f := by
  cases v <;> simp [renumber, renumberItems_eq_map, returnedWord]

theorem functionResult_renumber (v : Option Value) :
    functionResult (v.map (renumber f)) = (functionResult v).map (renumber f) := by
  cases v with
  | none => simp [functionResult, Except.map]
  | some v =>
      cases v with
      | list items =>
          cases items with
          | nil => simp [functionResult, Except.map]
          | cons first rest =>
              simp only [Option.map_some, renumber_list, List.map_cons, functionResult,
                isOpen_renumber, subscript_renumber]
              split
              · simp [Except.map, pure, Except.pure]
              · cases first.subscript "value" with
                | error fault => rfl
                | ok inner =>
                    cases inner <;> simp [renumber, renumberItems_eq_map, Except.map, bind,
                      Except.bind, pure, Except.pure]
      | _ => simp [renumber, functionResult, Except.map]

end Value

namespace Run

open Value

variable {f : Nat → Nat}

theorem returnedBy_renumber (v : Value) :
    returnedBy (v.renumber f) = (returnedBy v).map (Option.map (renumber f)) := by
  cases v with
  | obj entries =>
      have type := subscript_renumber (f := f) "type" (.obj entries)
      have value := subscript_renumber (f := f) "value" (.obj entries)
      simp only [renumber_obj] at type value ⊢
      simp only [returnedBy, isEmpty_renumberEntries, type, value]
      split
      · rfl
      · cases subscript "type" (.obj entries) with
        | error fault => rfl
        | ok type =>
            simp only [Except.map, bind, Except.bind, pure, Except.pure, equal_str_renumber]
            split
            · cases subscript "value" (.obj entries) with
              | error fault => rfl
              | ok value => simp [returnedWord_renumber]
            · rfl
  | _ => simp [renumber, returnedBy, Except.map]

theorem assignedValue_renumber (v : Value) :
    assignedValue (v.renumber f) = (assignedValue v).map (renumber f) := by
  have outcome (o : Except Fault Value) :
      (o.map (renumber f)).map (fun v => if v.equal .null then .str "null" else v) =
        (o.map fun v => if v.equal .null then .str "null" else v).map (renumber f) := by
    cases o with
    | error fault => rfl
    | ok v =>
        simp only [Except.map, equal_null_renumber]
        split <;> simp
  simp only [assignedValue, unwrap_renumber]
  cases v.unwrap with
  | ok w => exact outcome (.ok w)
  | error fault =>
      cases fault with
      | noEntry key => exact outcome (.ok v)
      | _ => rfl

@[simp] theorem shownText_renumber (v : Value) : shownText (v.renumber f) = shownText v := by
  simp only [shownText, truthy_renumber, text_renumber]

theorem joinTexts_renumber (position : Nat) (args : List Value) :
    joinTexts position (args.map (renumber f)) = joinTexts position args := by
  induction args generalizing position with
  | nil => rfl
  | cons v rest ih =>
      have kinds := kind_renumber (f := f) v
      cases v with
      | str s => simp only [List.map_cons, renumber_str, joinTexts, ih]
      | _ => simp_all [renumber, joinTexts]

end Run

end Scriptlet
