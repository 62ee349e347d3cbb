import DuckdbSalesforce.Soql.Printed
import DuckdbSalesforce.Plan.AggOptimizer

/-!
# The pushed aggregate statement, read back

The select list of `aggregateSoql` is a list of calls `FUNC(field) alias`, and
the service reads exactly the calls that were pushed.
-/

namespace DuckdbSalesforce
open CondGrammar

structure AggregateCall where
  func : Text
  field : Text
  resultName : Text
  deriving DecidableEq, Repr

def AggregateCall.tokens (c : AggregateCall) : List Token :=
  [wordAtom c.func, .lpar, wordAtom c.field, .rpar, wordAtom c.resultName]

def parseCalls : List Token → Option (List AggregateCall)
  | [.atom (.word f), .lpar, .atom (.word x), .rpar, .atom (.word a)] => some [⟨f, x, a⟩]
  | .atom (.word f) :: .lpar :: .atom (.word x) :: .rpar :: .atom (.word a) :: .atom .comma ::
      rest => (parseCalls rest).map (⟨f, x, a⟩ :: ·)
  | _ => none

def SalesforcePushedAggregate.call (pa : SalesforcePushedAggregate) : AggregateCall :=
  ⟨pa.func, pa.field, pa.emit.name⟩

structure AggregateCall.Plain (c : AggregateCall) : Prop where
  func : isBareToken c.func = true
  field : isBareToken c.field = true
  resultName : isBareToken c.resultName = true

theorem lex_aggregateItem (pa : SalesforcePushedAggregate) (h : pa.call.Plain) :
    lex (aggregateItem pa) = some pa.call.tokens := by
  have hfunc := lex_bare _ h.func
  have hfield := lex_bare _ h.field
  have hname := lex_bare _ h.resultName
  have hspace := lex_delimiter [] pa.emit.name ' ' [] [] rfl rfl
  have hclose := lex_delimiter pa.field (' ' :: pa.emit.name) ')' _ [.rpar] rfl hfield
  have hopen := lex_delimiter pa.func (pa.field ++ ')' :: ' ' :: pa.emit.name) '(' _ [.lpar] rfl
    hfunc
  rw [List.nil_append] at hspace
  rw [hclose, hspace] at hopen
  have hname' : lex pa.emit.name = some [wordAtom pa.emit.name] := hname
  rw [hname'] at hopen
  have htext : aggregateItem pa = pa.func ++ '(' :: (pa.field ++ ')' :: ' ' :: pa.emit.name) := by
    simp [aggregateItem]
  rw [htext, hopen]
  rfl

def callTokens (calls : List AggregateCall) : List Token :=
  joinTok (.atom .comma) (calls.map AggregateCall.tokens)

theorem callTokens_plain (calls : List AggregateCall) :
    ∀ t ∈ callTokens calls, isReserved t = false := by
  induction calls with
  | nil =>
    intro t ht
    cases ht
  | cons c cs ih =>
    intro t ht
    have hc : ∀ u ∈ c.tokens, isReserved u = false := by
      intro u hu
      simp only [AggregateCall.tokens, List.mem_cons, List.not_mem_nil, or_false] at hu
      rcases hu with rfl | rfl | rfl | rfl | rfl <;> rfl
    cases cs with
    | nil => exact hc t ht
    | cons d ds =>
      have hsplit : callTokens (c :: d :: ds) =
          c.tokens ++ .atom .comma :: callTokens (d :: ds) := rfl
      rw [hsplit] at ht
      rcases List.mem_append.mp ht with ht | ht
      · exact hc t ht
      · rcases List.mem_cons.mp ht with rfl | ht
        · rfl
        · exact ih t ht

theorem parseCalls_tokens (calls : List AggregateCall) (hne : calls ≠ []) :
    parseCalls (callTokens calls) = some calls := by
  induction calls with
  | nil => exact absurd rfl hne
  | cons c cs ih =>
    cases cs with
    | nil => rfl
    | cons d ds =>
      have hrest := ih (by simp)
      have hsplit : callTokens (c :: d :: ds) =
          wordAtom c.func :: .lpar :: wordAtom c.field :: .rpar :: wordAtom c.resultName ::
            .atom .comma :: callTokens (d :: ds) := rfl
      rw [hsplit]
      show (parseCalls (callTokens (d :: ds))).map (c :: ·) = _
      rw [hrest]
      rfl

theorem lex_aggregateItems (pushed : List SalesforcePushedAggregate)
    (h : ∀ pa ∈ pushed, pa.call.Plain) :
    lex (joinText ", ".toList (pushed.map aggregateItem)) =
      some (callTokens (pushed.map SalesforcePushedAggregate.call)) := by
  have hall := lex_joined_by ", ".toList (.atom .comma) lex_comma
    (pushed.map fun pa => (aggregateItem pa, pa.call.tokens)) (by
      intro q hq
      obtain ⟨pa, hpa, rfl⟩ := List.mem_map.mp hq
      exact lex_aggregateItem pa (h pa hpa))
  simpa only [List.map_map, Function.comp_def, callTokens] using hall

/-! ### The names in a pushed term -/

theorem isBareToken_alias (i : ℕ) : isBareToken (aliasText i) = true := by
  obtain ⟨hne, hdigits⟩ := natText_digits i
  obtain ⟨d, hd⟩ := List.exists_mem_of_ne_nil _ hne
  refine isBareToken_of_digit _ ?_ d (hdigits d hd) (List.mem_append_right _ hd)
  rw [List.all_eq_true]
  intro c hc
  rcases List.mem_append.mp hc with hc | hc
  · rw [List.mem_singleton.mp hc]
    decide
  · exact isWordChar_digit c (hdigits c hc)

def aggregateFunctions : List Text :=
  ["COUNT".toList, "COUNT_DISTINCT".toList, "MIN".toList, "MAX".toList]

theorem isBareToken_function (f : Text) (h : f ∈ aggregateFunctions) : isBareToken f = true := by
  have hall : ∀ f ∈ aggregateFunctions, isBareToken f = true := by decide
  exact hall f h

/-- The field names a service hands out are words. -/
def FieldsNamed (bind : SalesforceScanBindData) : Prop :=
  ∀ f ∈ bind.fields, isBareToken f.name = true

theorem resolvedField_mem (get : LogicalGet) (bind : SalesforceScanBindData)
    (e : ScalarExpression) (field : SalesforceField) (h : ResolvedField get bind e field) :
    field ∈ bind.fields := by
  obtain ⟨_, _, originalIdx, _, _, hfield⟩ := h.reference
  exact List.mem_of_getElem? hfield

theorem pushedTerm_plain (get : LogicalGet) (bind : SalesforceScanBindData) (i : ℕ)
    (bag : BoundAggregateExpression) (pa : SalesforcePushedAggregate)
    (h : PushedTerm get bind i bag pa) (hnamed : FieldsNamed bind) : pa.call.Plain := by
  cases h with
  | count child field _ _ _ resolved =>
    refine ⟨isBareToken_function _ ?_, hnamed field (resolvedField_mem get bind child field resolved),
      isBareToken_alias i⟩
    cases bag.distinct
    · exact List.mem_cons_self ..
    · exact List.mem_cons_of_mem _ (List.mem_cons_self ..)
  | minMax child field _ _ name _ resolved _ _ =>
    refine ⟨isBareToken_function _ ?_, hnamed field (resolvedField_mem get bind child field resolved),
      isBareToken_alias i⟩
    show upper (lower bag.functionName) ∈ aggregateFunctions
    rcases name with hmin | hmax
    · rw [hmin]
      decide
    · rw [hmax]
      decide

theorem countDistinctOf_plain (field : SalesforceField) (h : isBareToken field.name = true) :
    (countDistinctOf field).call.Plain :=
  ⟨isBareToken_function _ (List.mem_cons_of_mem _ (List.mem_cons_self ..)), h, isBareToken_alias 0⟩

theorem parse_aggregateSoql (bind : SalesforceScanBindData) (cond : Option SoqlCond)
    (hplain : ∀ pa ∈ bind.pushedAggregates, pa.call.Plain)
    (hobj : isBareToken bind.object = true) (hw : WhereReads bind.pushedWhere cond) :
    parseSelect (selectText (joinText ", ".toList (bind.pushedAggregates.map aggregateItem))
        bind.object bind.pushedWhere none) =
      some ⟨callTokens (bind.pushedAggregates.map SalesforcePushedAggregate.call), bind.object, cond,
        none⟩ :=
  parse_selectText _ _ bind.object bind.pushedWhere cond none
    (lex_aggregateItems bind.pushedAggregates hplain) (callTokens_plain _) hobj hw

end DuckdbSalesforce
