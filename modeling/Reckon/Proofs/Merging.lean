import Reckon.Context.Load
import Reckon.Proofs.Calls

/-!
A context read from data, field by field. Operators and functions are tables of their own, in which
the last entry under a key counts; flags are put over the standard ones; an absent field is the
standard one. Main statement: a record that is read describes the context in each of its fields, and
no name in any letter case is bound to the builtin of another (`merges_of_ofData`).
-/

namespace Reckon

/-! ## What an entry lists -/

/-- A record that lists an operator: it holds a symbol and a precedence, and leans left unless it
says otherwise. -/
structure ListsOperator (d : Data) (e : OperatorEntry) : Prop where
  key : e.key = e.symbol
  fields : ∃ fields : Table Data, d = .record fields ∧
    fields.value? "symbol" = some e.symbol ∧
    fields.value? "precedence" = some e.rule.precedence ∧
    (fields.value? "associativity").getD (.text "left") = .text e.rule.associativity.name

/-- A name alone or a record that lists a function: the name in small letters is bound to the
builtin of that name and to no other. An arity of its own counts even when it is null; without it
the function takes what the builtin takes, or any number of arguments when there is none. -/
structure ListsFunction (d : Data) (listed : String × FunctionEntry) : Prop where
  name : ∃ s, listed.1 = Text.small s ∧
    (d = .text s ∨ ∃ fields : Table Data, d = .record fields ∧
      fields.value? "name" = some (.text s))
  bound : ∀ b, listed.2.builtin = some b ↔ b.name = listed.1
  own : ∀ (fields : Table Data) (arity : Data), d = .record fields →
    fields.value? "arity" = some arity → listed.2.arity = arity
  inherited : (∀ fields : Table Data, d = .record fields → fields.value? "arity" = none) →
    listed.2.arity = .ofInt? (listed.2.builtin.map Builtin.arity)

theorem Builtin.ofName?_eq_some {s : String} {b : Builtin} : ofName? s = some b ↔ b.name = s := by
  refine ⟨name_of_ofName?, ?_⟩
  rintro rfl
  exact ofName?_name b

theorem Associativity.eq_name_of_ofData {d : Data} {a : Associativity} (h : ofData d = .ok a) :
    d = .text a.name := by
  unfold ofData at h
  split at h
  · split at h
    · next found =>
      cases h
      unfold ofName? at found
      split at found <;> cases found <;> rfl
    · cases h
  · cases h

namespace Data

theorem asRecord_eq_ok {d : Data} {fields : Table Data} :
    d.asRecord = .ok fields ↔ d = .record fields := by
  cases d <;> simp [asRecord]

theorem field_eq_ok {fields : Table Data} {key : String} {d : Data} :
    field fields key = .ok d ↔ fields.value? key = some d := by
  unfold field
  cases fields.value? key <;> simp

theorem elements_eq_ok {d : Data} {ds : List Data} :
    d.elements = .ok ds ↔ d.elements? = some ds := by
  unfold elements
  cases d.elements? <;> simp

end Data

namespace Context

theorem listsOperator_of_read {d : Data} {e : OperatorEntry} (h : operatorOfData d = .ok e) :
    ListsOperator d e := by
  obtain ⟨fields, hd, h⟩ := bind_eq_ok.mp h
  obtain ⟨symbol, hs, h⟩ := bind_eq_ok.mp h
  obtain ⟨precedence, hp, h⟩ := bind_eq_ok.mp h
  obtain ⟨associativity, ha, h⟩ := bind_eq_ok.mp h
  split at h
  · cases h
    exact ⟨rfl, fields, Data.asRecord_eq_ok.mp hd, Data.field_eq_ok.mp hs, Data.field_eq_ok.mp hp,
      Associativity.eq_name_of_ofData ha⟩
  · cases h

theorem listsFunction_of_read {d : Data} {listed : String × FunctionEntry}
    (h : functionOfData d = .ok listed) : ListsFunction d listed := by
  cases d with
  | text s =>
    cases h
    exact ⟨⟨s, rfl, .inl rfl⟩, fun b => Builtin.ofName?_eq_some, nofun, fun _ => rfl⟩
  | record fields =>
    obtain ⟨_, ⟨⟩, h⟩ := bind_eq_ok.mp h
    obtain ⟨name, hn, h⟩ := bind_eq_ok.mp h
    split at h
    · next s =>
      cases h
      refine ⟨⟨s, rfl, .inr ⟨fields, rfl, Data.field_eq_ok.mp hn⟩⟩,
        fun b => Builtin.ofName?_eq_some, ?_, ?_⟩
      · rintro _ arity ⟨⟩ found
        simp [found]
      · intro absent
        simp [absent fields rfl]
    · cases h
  | _ => cases h

/-! ## The fields of a context -/

theorem listOf_eq_ok {α : Type} {read : Data → Except Fault α} {d : Data} {es : List α} :
    listOf read d = .ok es ↔
      ∃ ds, d.elements? = some ds ∧ List.Forall₂ (fun d e => read d = .ok e) ds es := by
  simp only [listOf, bind_eq_ok, Data.elements_eq_ok, mapM_eq_ok]

section FieldOr
variable {α : Type} {fields : Table Data} {key : String} {d : Data}
  (read : Data → Except Fault α) (standard : α)

theorem fieldOr_some (h : fields.value? key = some d) :
    fieldOr fields key read standard = read d := by
  rw [fieldOr, h]

theorem fieldOr_none (h : fields.value? key = none) :
    fieldOr fields key read standard = .ok standard := by
  rw [fieldOr, h]

end FieldOr

/-- The rule of an entry under a text. -/
def named? (e : OperatorEntry) : Option (String × OperatorRule) :=
  match e.key with
  | .text sign => some (sign, e.rule)
  | _ => none

theorem namedRules_eq (es : List OperatorEntry) (t : Table OperatorRule) :
    namedRules es t = t.putAll (es.filterMap named?) := by
  induction es generalizing t with
  | nil => rfl
  | cons e es ih =>
    obtain ⟨key, symbol, rule⟩ := e
    cases key <;> exact ih _

theorem strayRules_eq_nil {es : List OperatorEntry} (h : ∀ e ∈ es, (named? e).isSome) :
    strayRules es [] = [] := by
  induction es with
  | nil => rfl
  | cons e es ih =>
    obtain ⟨key, symbol, rule⟩ := e
    have rest := ih fun e he => h e (List.mem_cons_of_mem _ he)
    have first := h _ List.mem_cons_self
    cases key <;> first | exact rest | cases first

/-- The keys of a record are texts, so that none of its flags is astray. -/
theorem named_text (fields : Table Data) :
    Data.named (fields.map fun kv => (.text kv.1, kv.2)) = fields ∧
      Data.unnamed (fields.map fun kv => (.text kv.1, kv.2)) = [] := by
  induction fields with
  | nil => exact ⟨rfl, rfl⟩
  | cons kv rest ih => exact ⟨congrArg (kv :: ·) ih.1, ih.2⟩

/-- The reading of a record, step by step. -/
structure Loads (fields : Table Data) (ctx : Context) (listed : List (Data × Data)) : Prop where
  name : ctx.name = (fields.value? "name").getD standard.name
  operators : fieldOr fields "operators"
    (fun d => (listOf operatorOfData d).map fun es => (namedRules es [], strayRules es []))
    (standard.operators, []) = .ok (ctx.operators, ctx.strays)
  functions : fieldOr fields "functions" (fun d => (listOf functionOfData d).map (Table.putAll []))
    standard.functions = .ok ctx.functions
  separators : ctx.separators = (fields.value? "separators").getD standard.separators
  epsilon : fieldOr fields "epsilon" Data.double standard.epsilon = .ok ctx.epsilon
  entries : fieldOr fields "flags" Data.entries [] = .ok listed
  flags : ctx.flags = standard.flags.putAll (Data.named listed)
  strayFlags : ctx.strayFlags = Data.unnamed listed

theorem loads_of_ofFields {fields : Table Data} {ctx : Context} (h : ofFields fields = .ok ctx) :
    ∃ listed, Loads fields ctx listed := by
  obtain ⟨⟨operators, strays⟩, ho, h⟩ := bind_eq_ok.mp h
  obtain ⟨functions, hf, h⟩ := bind_eq_ok.mp h
  obtain ⟨epsilon, he, h⟩ := bind_eq_ok.mp h
  obtain ⟨listed, hl, h⟩ := bind_eq_ok.mp h
  cases h
  exact ⟨listed, rfl, ho, hf, rfl, he, hl, rfl, rfl⟩

/-- What a value says of a context: the fields of a record, and nothing if it is empty or false. -/
def described : Data → Table Data
  | .record fields => fields
  | _ => []

theorem ofFields_of_ofData {d : Data} {ctx : Context} (h : ofData d = .ok ctx) :
    ofFields (described d) = .ok ctx := by
  unfold ofData at h
  split at h
  · cases d with
    | record fields => exact h
    | _ => cases h
  · next empty =>
    cases h
    cases d with
    | record fields =>
      obtain rfl : fields = [] := by simpa [Data.truthy] using empty
      rfl
    | _ => rfl

/-- A context is what these fields make of the standard one. -/
structure Merges (fields : Table Data) (ctx : Context) : Prop where
  name : ctx.name = (fields.value? "name").getD standard.name
  operators : ∀ d, fields.value? "operators" = some d → ∃ ds es, d.elements? = some ds ∧
    List.Forall₂ ListsOperator ds es ∧
    (∀ sign, ctx.operators.value? sign = Table.last? sign (es.filterMap named?)) ∧
    ((∀ e ∈ es, (named? e).isSome) → ctx.strays = [])
  standardOperators : fields.value? "operators" = none →
    ctx.operators = standard.operators ∧ ctx.strays = []
  functions : ∀ d, fields.value? "functions" = some d → ∃ ds es, d.elements? = some ds ∧
    List.Forall₂ ListsFunction ds es ∧
    ∀ name, ctx.functions.value? name = Table.last? name es
  standardFunctions : fields.value? "functions" = none → ctx.functions = standard.functions
  separators : ctx.separators = (fields.value? "separators").getD standard.separators
  epsilon : ∀ d, fields.value? "epsilon" = some d → d.double = .ok ctx.epsilon
  standardEpsilon : fields.value? "epsilon" = none → ctx.epsilon = standard.epsilon
  flags : ∀ listed : Table Data, fields.value? "flags" = some (.record listed) →
    ctx.strayFlags = [] ∧
    ∀ name, ctx.flags.value? name = (Table.last? name listed).or (standard.flags.value? name)
  standardFlags : fields.value? "flags" = none →
    ctx.flags = standard.flags ∧ ctx.strayFlags = []

section Merges
variable {fields : Table Data} {ctx : Context} {listed : List (Data × Data)}

theorem Loads.listed_operators (h : Loads fields ctx listed) {d : Data}
    (hd : fields.value? "operators" = some d) :
    ∃ ds es, d.elements? = some ds ∧ List.Forall₂ ListsOperator ds es ∧
      (∀ sign, ctx.operators.value? sign = Table.last? sign (es.filterMap named?)) ∧
      ((∀ e ∈ es, (named? e).isSome) → ctx.strays = []) := by
  have read := h.operators
  rw [fieldOr_some _ _ hd] at read
  obtain ⟨es, hes, tables⟩ := map_eq_ok.mp read
  obtain ⟨ds, hds, each⟩ := listOf_eq_ok.mp hes
  obtain ⟨operators, strays⟩ := Prod.mk.inj tables
  refine ⟨ds, es, hds, each.imp fun _ _ => listsOperator_of_read, fun sign => ?_, fun named => ?_⟩
  · rw [← operators, namedRules_eq, Table.value?_putAll]
    exact Option.or_none
  · rw [← strays, strayRules_eq_nil named]

theorem Loads.listed_functions (h : Loads fields ctx listed) {d : Data}
    (hd : fields.value? "functions" = some d) :
    ∃ ds es, d.elements? = some ds ∧ List.Forall₂ ListsFunction ds es ∧
      ∀ name, ctx.functions.value? name = Table.last? name es := by
  have read := h.functions
  rw [fieldOr_some _ _ hd] at read
  obtain ⟨es, hes, table⟩ := map_eq_ok.mp read
  obtain ⟨ds, hds, each⟩ := listOf_eq_ok.mp hes
  refine ⟨ds, es, hds, each.imp fun _ _ => listsFunction_of_read, fun name => ?_⟩
  rw [← table, Table.value?_putAll]
  exact Option.or_none

theorem Loads.merges (h : Loads fields ctx listed) : Merges fields ctx where
  name := h.name
  operators _ hd := h.listed_operators hd
  standardOperators absent := by
    have read := h.operators
    rw [fieldOr_none _ _ absent] at read
    obtain ⟨operators, strays⟩ := Prod.mk.inj (Except.ok.inj read)
    exact ⟨operators.symm, strays.symm⟩
  functions _ hd := h.listed_functions hd
  standardFunctions absent := by
    have read := h.functions
    rw [fieldOr_none _ _ absent] at read
    exact (Except.ok.inj read).symm
  separators := h.separators
  epsilon _ hd := by rw [← fieldOr_some Data.double standard.epsilon hd, h.epsilon]
  standardEpsilon absent := by
    have read := h.epsilon
    rw [fieldOr_none _ _ absent] at read
    exact (Except.ok.inj read).symm
  flags table hd := by
    have read := h.entries
    rw [fieldOr_some _ _ hd] at read
    obtain rfl := Except.ok.inj read
    obtain ⟨named, unnamed⟩ := named_text table
    refine ⟨h.strayFlags.trans unnamed, fun name => ?_⟩
    rw [h.flags, named, Table.value?_putAll]
  standardFlags absent := by
    have read := h.entries
    rw [fieldOr_none _ _ absent] at read
    obtain rfl := Except.ok.inj read
    exact ⟨h.flags, h.strayFlags⟩

end Merges

/-! ## One field at a time -/

/-- Each field of two contexts is the same as soon as the fields they are read from agree on its
key. -/
structure FieldwiseEqual (fields fields' : Table Data) (ctx ctx' : Context) : Prop where
  name : fields.value? "name" = fields'.value? "name" → ctx.name = ctx'.name
  operators : fields.value? "operators" = fields'.value? "operators" →
    ctx.operators = ctx'.operators ∧ ctx.strays = ctx'.strays
  functions : fields.value? "functions" = fields'.value? "functions" →
    ctx.functions = ctx'.functions
  separators : fields.value? "separators" = fields'.value? "separators" →
    ctx.separators = ctx'.separators
  epsilon : fields.value? "epsilon" = fields'.value? "epsilon" → ctx.epsilon = ctx'.epsilon
  flags : fields.value? "flags" = fields'.value? "flags" →
    ctx.flags = ctx'.flags ∧ ctx.strayFlags = ctx'.strayFlags

theorem fieldOr_congr {α : Type} {fields fields' : Table Data} {key : String}
    {read : Data → Except Fault α} {standard a a' : α}
    (agree : fields.value? key = fields'.value? key)
    (h : fieldOr fields key read standard = .ok a)
    (h' : fieldOr fields' key read standard = .ok a') : a = a' := by
  unfold fieldOr at h h'
  rw [agree, h'] at h
  exact (Except.ok.inj h).symm

theorem Loads.fieldwise {fields fields' : Table Data} {ctx ctx' : Context}
    {listed listed' : List (Data × Data)} (h : Loads fields ctx listed)
    (h' : Loads fields' ctx' listed') : FieldwiseEqual fields fields' ctx ctx' where
  name agree := by rw [h.name, h'.name, agree]
  operators agree := Prod.mk.inj (fieldOr_congr agree h.operators h'.operators)
  functions agree := fieldOr_congr agree h.functions h'.functions
  separators agree := by rw [h.separators, h'.separators, agree]
  epsilon agree := fieldOr_congr agree h.epsilon h'.epsilon
  flags agree := by
    obtain rfl := fieldOr_congr agree h.entries h'.entries
    exact ⟨h.flags.trans h'.flags.symm, h.strayFlags.trans h'.strayFlags.symm⟩

/-! ## Builtins under their own names -/

/-- Every entry that computes is the builtin of its name. -/
def BoundByName (functions : Table FunctionEntry) : Prop :=
  ∀ name entry b, functions.value? name = some entry → entry.builtin = some b → b.name = name

theorem boundByName_standard : BoundByName standard.functions := by
  have each : ∀ kv ∈ standard.functions, ∀ b ∈ Builtin.all, kv.2.builtin = some b →
      b.name = kv.1 := by decide
  intro name entry b found bound
  exact each _ (Table.mem_of_value? found) b b.mem_all bound

theorem Merges.boundByName {fields : Table Data} {ctx : Context} (h : Merges fields ctx) :
    BoundByName ctx.functions := by
  cases hd : fields.value? "functions" with
  | none =>
    rw [h.standardFunctions hd]
    exact boundByName_standard
  | some d =>
    obtain ⟨ds, es, -, each, last⟩ := h.functions d hd
    intro name entry b found bound
    rw [last name] at found
    obtain ⟨d, -, lists⟩ := exists_of_forall₂ each.flip (Table.mem_of_last? found)
    exact (lists.bound b).mp bound

/-- What is read from data is merged field by field into the standard context, and each field
depends on its own key alone. So a name in any letter case finds the builtin of that name or none.
-/
theorem merges_of_ofData {d : Data} {ctx : Context} (h : ofData d = .ok ctx) :
    Merges (described d) ctx ∧
    (∀ d' ctx', ofData d' = .ok ctx' →
      FieldwiseEqual (described d) (described d') ctx ctx') ∧
    ∀ name entry b, ctx.function? name = some entry → entry.builtin = some b →
      b.name = Text.small name := by
  obtain ⟨listed, loads⟩ := loads_of_ofFields (ofFields_of_ofData h)
  refine ⟨loads.merges, fun d' ctx' h' => ?_, fun _ => loads.merges.boundByName _⟩
  obtain ⟨listed', loads'⟩ := loads_of_ofFields (ofFields_of_ofData h')
  exact loads.fieldwise loads'

/-- A sign and a name that are listed twice, the name in two letter cases. -/
def listedTwice : Data := .record [
  ("operators", .list [
    .record [("symbol", .text "+"), ("precedence", .int 1)],
    .record [("symbol", .text "+"), ("precedence", .int 3), ("associativity", .text "right")]]),
  ("functions", .list [
    .text "SIN", .record [("name", .text "Sin"), ("arity", .null)], .text "foo"])]

theorem merges_of_ofData_listedTwice :
    ∃ ctx, ofData listedTwice = .ok ctx ∧ Merges (described listedTwice) ctx ∧
      ctx.operators.map Prod.fst = ["+"] ∧
      (ctx.operators.value? "+").map OperatorRule.associativity = some .right ∧
      (ctx.function? "sIN").map (fun e => (e.builtin, e.takes 5)) = some (some .sin, true) ∧
      (ctx.function? "foo").map FunctionEntry.builtin = some none :=
  ⟨_, rfl, (merges_of_ofData rfl).1, by decide, by decide, by decide, by decide⟩

end Context
end Reckon
