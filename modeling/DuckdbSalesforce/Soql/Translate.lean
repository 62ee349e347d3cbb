import DuckdbSalesforce.Soql.Expression

/-!
# SOQL generation and filter pushdown (`salesforce_soql.cpp`)

`translateExpr` returns what the C++ function returns and writes: `none` for
`false` (the conjunct stays residual), the clause text with its `exact` flag
for `true`, and an error for the `BinderException` that it lets through. Every
other exception is caught there and reported as `false`.
-/

namespace DuckdbSalesforce

def kMaxWhereChars : ℕ := 4000

/-- Defensive cap: a huge IN list is not worth pushing. -/
def kMaxInItems : ℕ := 200

def soqlEscape : Text → Text
  | [] => []
  | c :: s => if c = '\\' ∨ c = '\'' then '\\' :: c :: soqlEscape s else c :: soqlEscape s

def soqlString (s : Text) : Text := '\'' :: soqlEscape s ++ ['\'']

/-- `s[s.find(' ')] = 'T'` when there is a blank. -/
def blankToT : Text → Text
  | [] => []
  | c :: s => if c = ' ' then 'T' :: s else c :: blankToT s

/-- `SoqlLiteral`; `none` is the `NotImplementedException`. -/
def soqlLiteral (v : Value) : Option Text :=
  match v with
  | .null _ => some "null".toList
  | .varchar s => some (soqlString s)
  | .boolean b => some (if b then "true".toList else "false".toList)
  | .scalar type _ str =>
    match type with
    | .tinyint | .smallint | .integer | .bigint | .utinyint | .usmallint | .uinteger | .ubigint
    | .float | .double | .decimal _ _ => some str
    | .date => some str
    | .timestamp => some (blankToT str ++ "Z".toList)
    | .time => some (str ++ "Z".toList)
    | _ => none

def comparisonOp : ExpressionType → Option Text
  | .compareEqual => some "=".toList
  | .compareNotEqual => some "!=".toList
  | .compareLessThan => some "<".toList
  | .compareGreaterThan => some ">".toList
  | .compareLessThanOrEqualTo => some "<=".toList
  | .compareGreaterThanOrEqualTo => some ">=".toList
  | _ => none

/-- The operator of `column <op'> constant` for `constant <op> column`. -/
def flipComparison : ExpressionType → Option ExpressionType
  | .compareEqual => some .compareEqual
  | .compareNotEqual => some .compareNotEqual
  | .compareLessThan => some .compareGreaterThan
  | .compareGreaterThan => some .compareLessThan
  | .compareLessThanOrEqualTo => some .compareGreaterThanOrEqualTo
  | .compareGreaterThanOrEqualTo => some .compareLessThanOrEqualTo
  | _ => none

structure BinderException where
  message : Text
  deriving DecidableEq, Repr

def invalidIdError (text field : Text) : BinderException :=
  ⟨"salesforce: invalid Salesforce Id '".toList ++ text ++ "' for field '".toList ++ field ++
    "' - expected 15 or 18 alphanumeric characters (Salesforce rejects this predicate ".toList ++
    "with INVALID_QUERY_FILTER_OPERATOR).".toList⟩

def isValidSalesforceIdText (s : Text) : Bool :=
  if s.length ≠ 15 ∧ s.length ≠ 18 then false else s.all isAlnum

def constantOf : Expr → Option Value
  | .constant v => some v
  | _ => none

section Translate
variable (fields : List SalesforceField) (projectionToField : List ℕ)

/-- The filterable field a column reference denotes. -/
def fieldFor (e : Expr) : Option Text :=
  match e with
  | .columnRef proj =>
    match projectionToField[proj]? with
    | none => none
    | some idx =>
      match fields[idx]? with
      | none => none
      | some f => if f.filterable then some f.name else none
  | _ => none

def fieldStructFor (name : Text) : Option SalesforceField :=
  fields.find? fun f => ciEquals f.name name

def checkIdLiterals (field : Text) (literals : List Value) : Except BinderException Unit :=
  match fieldStructFor fields field with
  | none => .ok ()
  | some fld =>
    if lower fld.sfType ≠ "id".toList then .ok ()
    else
      match literals.find? fun v => !v.isNull && !isValidSalesforceIdText v.toText with
      | none => .ok ()
      | some v => .error (invalidIdError v.toText field)

/-- The column, operator and constant of a comparison, turned to
`column <op> constant`. -/
def comparisonOperands (etype : ExpressionType) (l r : Expr) :
    Option (Text × ExpressionType × Value) :=
  match fieldFor fields projectionToField l, constantOf r with
  | some field, some v => some (field, etype, v)
  | _, _ =>
    match fieldFor fields projectionToField r, constantOf l with
    | some field, some v => (flipComparison etype).map fun cmp => (field, cmp, v)
    | _, _ => none

def translateComparison (etype : ExpressionType) (l r : Expr) :
    Except BinderException (Option (Text × Bool)) :=
  match comparisonOperands fields projectionToField etype l r with
  | none => .ok none
  | some (field, cmp, v) =>
    match comparisonOp cmp with
    | none => .ok none
    | some op => do
      if cmp = .compareEqual ∨ cmp = .compareNotEqual then
        checkIdLiterals fields field [v]
      match soqlLiteral v with
      | none => .ok none
      | some lit => .ok (some (field ++ " ".toList ++ op ++ " ".toList ++ lit, true))

def translateBetween (input lower upper : Expr) (loInc hiInc : Bool) :
    Except BinderException (Option (Text × Bool)) :=
  match fieldFor fields projectionToField input with
  | none => .ok none
  | some field =>
    match constantOf lower, constantOf upper with
    | some loVal, some hiVal =>
      if loVal.isNull ∨ hiVal.isNull then .ok none
      else
        let loOp := if loInc then ">=".toList else ">".toList
        let hiOp := if hiInc then "<=".toList else "<".toList
        match soqlLiteral loVal, soqlLiteral hiVal with
        | some lo, some hi =>
          .ok (some ("(".toList ++ field ++ " ".toList ++ loOp ++ " ".toList ++ lo ++ " AND ".toList ++
            field ++ " ".toList ++ hiOp ++ " ".toList ++ hi ++ ")".toList, true))
        | _, _ => .ok none
    | _, _ => .ok none

/-- The item loop of IN: `none` when an item is not a constant, or its literal
is not supported. -/
def inItems : List Expr → Option (List Value × List Text)
  | [] => some ([], [])
  | e :: es =>
    match constantOf e with
    | none => none
    | some v =>
      match soqlLiteral v with
      | none => none
      | some lit => (inItems es).map fun p => (v :: p.1, lit :: p.2)

def translateOperator (etype : ExpressionType) (children : List Expr) :
    Except BinderException (Option (Text × Bool)) :=
  if etype = .operatorIsNull ∨ etype = .operatorIsNotNull then
    match children with
    | [c] =>
      match fieldFor fields projectionToField c with
      | none => .ok none
      | some field =>
        .ok (some (field ++ (if etype = .operatorIsNull then " = null".toList
          else " != null".toList), true))
    | _ => .ok none
  else if etype = .compareIn then
    match children with
    | c :: d :: items =>
      match fieldFor fields projectionToField c with
      | none => .ok none
      | some field =>
        if (d :: items).length > kMaxInItems then .ok none
        else
          match inItems (d :: items) with
          | none => .ok none
          | some (values, lits) => do
            checkIdLiterals fields field values
            .ok (some (field ++ " IN (".toList ++ joinText ", ".toList lits ++ ")".toList, false))
    | _ => .ok none
  else .ok none

/-- The SOQL LIKE pattern of `~~`, `prefix`, `suffix` and `contains`. -/
def likePattern (fn sub : Text) : Option Text :=
  if fn = "~~".toList then some sub
  else if fn = "prefix".toList then some (sub ++ "%".toList)
  else if fn = "suffix".toList then some ("%".toList ++ sub)
  else if fn = "contains".toList then some ("%".toList ++ sub ++ "%".toList)
  else none

def translateFunction (fn : Text) (children : List Expr) :
    Except BinderException (Option (Text × Bool)) :=
  match children with
  | [c, d] =>
    match fieldFor fields projectionToField c, d with
    | some field, .constant (.varchar sub) =>
      .ok ((likePattern fn sub).map fun pattern =>
        (field ++ " LIKE ".toList ++ soqlString pattern, false))
    | _, _ => .ok none
  | _ => .ok none

def conjunctionSep (etype : ExpressionType) : Text :=
  if etype = .conjunctionOr then " OR ".toList else " AND ".toList

mutual
def translateExpr : Expr → Except BinderException (Option (Text × Bool))
  | .comparison etype l r => translateComparison fields projectionToField etype l r
  | .between input lower upper loInc hiInc =>
    translateBetween fields projectionToField input lower upper loInc hiInc
  | .operator etype children => translateOperator fields projectionToField etype children
  | .function fn children => translateFunction fields projectionToField fn children
  | .conjunction etype children =>
    if etype = .conjunctionOr ∨ etype = .conjunctionAnd then do
      match ← translateChildren etype children 0 [] true with
      | none => .ok none
      | some (combined, allExact) =>
        .ok (some ("(".toList ++ combined ++ ")".toList,
          decide (etype = .conjunctionAnd) && allExact))
    else .ok none
  | .columnRef _ => .ok none
  | .constant _ => .ok none
  | .other _ _ => .ok none

/-- The child loop of a conjunction at index `k`. -/
def translateChildren (etype : ExpressionType) :
    List Expr → ℕ → Text → Bool → Except BinderException (Option (Text × Bool))
  | [], _, combined, allExact => .ok (some (combined, allExact))
  | c :: cs, k, combined, allExact => do
    match ← translateExpr c with
    | none => .ok none
    | some (cout, cexact) =>
      translateChildren etype cs (k + 1)
        (combined ++ (if k > 0 then conjunctionSep etype else []) ++ cout) (allExact && cexact)
end

structure PushdownConjunctInfo where
  translated : Bool
  exact : Bool
  deriving DecidableEq, Repr

structure PushdownResult where
  outWhere : Text
  filters : List Expr
  info : List PushdownConjunctInfo

def conjunctInfo : Option (Text × Bool) → PushdownConjunctInfo
  | none => ⟨false, false⟩
  | some (_, exact) => ⟨true, exact⟩

/-- `PushdownToSoql`: the WHERE, the filters left residual, and the entry of
`out_info` for every input conjunct. -/
def pushdownToSoql (filters : List Expr) : Except BinderException PushdownResult := do
  let results ← filters.mapM (translateExpr fields projectionToField)
  let clauses := results.filterMap fun r => r.map Prod.fst
  let soqlWhere := joinText " AND ".toList clauses
  if soqlWhere.length > kMaxWhereChars then
    .ok ⟨[], filters, filters.map fun _ => ⟨false, false⟩⟩
  else
    let info := results.map conjunctInfo
    let remaining := (filters.zip info).filter fun p => !(p.2.translated && p.2.exact)
    .ok ⟨soqlWhere, remaining.map Prod.fst, info⟩

end Translate

def limitText : Option ℕ → Text
  | none => []
  | some n => " LIMIT ".toList ++ (toString n).toList

/-- `BuildSelectSoql`; `limit` is the `optional_idx`. -/
def buildSelectSoql (object : Text) (selectFields : List Text) (whereClause : Text)
    (limit : Option ℕ) : Text :=
  "SELECT ".toList ++ joinText ", ".toList selectFields ++ " FROM ".toList ++ object ++
    (if whereClause = [] then [] else " WHERE ".toList ++ whereClause) ++ limitText limit

end DuckdbSalesforce
