import DuckdbSalesforce.Session.AttachValid
import DuckdbSalesforce.Session.TokenForm

/-!
# The path of a query (salesforce_session.cpp)

`QueryPath` puts the SOQL into the URL as the parameter `q`. Read as a path and
a form it is the endpoint and the SOQL, over every catalog that ATTACH accepts.
-/

namespace DuckdbSalesforce
open PercentText

def queryEndpoint (apiVersion : Text) (queryAll : Bool) : Text :=
  "/services/data/".toList ++ apiVersion ++ if queryAll then "/queryAll".toList else "/query".toList

/-- `query_all_` says which endpoint. -/
def queryPath (apiVersion : Text) (queryAll : Bool) (soql : Text) : Text :=
  "/services/data/".toList ++ apiVersion ++
    (if queryAll then "/queryAll?q=".toList else "/query?q=".toList) ++ urlEncodeComponent soql

/-- What stands before the first `?`, and the parameters after it. -/
def readPath (path : Text) : Text × Option (List (Text × Text)) :=
  (path.takeWhile (· ≠ '?'), readForm ((path.dropWhile (· ≠ '?')).drop 1))

/-- A character that a request line carries as it is. -/
def isPathChar (c : Char) : Bool := unreserved c || c ∈ ['/', '?', '=', '%']

theorem digit_unreserved (c : Char) (h : c.isDigit = true) : unreserved c = true := by
  simp [unreserved, isAlnum, Char.isAlphanum, h]

theorem versionNumber_chars (t : Text) (h : IsVersionNumber t) :
    ∀ c ∈ t, unreserved c = true := by
  obtain ⟨a, b, rfl, _, _, hda, hdb⟩ := h
  intro c hc
  rcases List.mem_append.mp hc with hc | hc
  · exact digit_unreserved c (hda c hc)
  · rcases List.mem_cons.mp hc with rfl | hc
    · decide
    · exact digit_unreserved c (hdb c hc)

theorem apiVersion_chars (t : Text) (h : IsApiVersion t) : ∀ c ∈ t, unreserved c = true := by
  obtain ⟨n, rfl, hn⟩ := h
  intro c hc
  rcases List.mem_cons.mp hc with rfl | hc
  · decide
  · exact versionNumber_chars n hn c hc

theorem queryPath_endpoint (apiVersion : Text) (queryAll : Bool) (soql : Text) :
    queryPath apiVersion queryAll soql =
      queryEndpoint apiVersion queryAll ++ '?' :: 'q' :: '=' :: urlEncodeComponent soql := by
  have hq : "/query?q=".toList = "/query".toList ++ ['?', 'q', '='] := by decide
  have hall : "/queryAll?q=".toList = "/queryAll".toList ++ ['?', 'q', '='] := by decide
  unfold queryPath queryEndpoint
  generalize urlEncodeComponent soql = q
  cases queryAll
  · simp only [Bool.false_eq_true, if_false, hq, List.append_assoc, List.cons_append, List.nil_append]
  · simp only [if_true, hall, List.append_assoc, List.cons_append, List.nil_append]

theorem query_form (soql : Text) :
    'q' :: '=' :: urlEncodeComponent soql = form unreserved [("q".toList, soql)] := by
  have hname : PercentText.encode unreserved "q".toList = ['q'] := by decide
  rw [form, List.map_singleton, List.intercalate_singleton, pairText, hname]
  rfl

theorem literal_chars (t : Text) (h : (t.all fun c => unreserved c || c == '/') = true) :
    ∀ c ∈ t, unreserved c = true ∨ c = '/' := by
  intro c hc
  simpa using List.all_eq_true.mp h c hc

theorem mode_chars (queryAll : Bool) :
    ∀ c ∈ (if queryAll then "/queryAll".toList else "/query".toList),
      unreserved c = true ∨ c = '/' := by
  apply literal_chars
  cases queryAll <;> decide

theorem endpoint_chars (apiVersion : Text) (queryAll : Bool) (h : IsApiVersion apiVersion) :
    ∀ c ∈ queryEndpoint apiVersion queryAll, unreserved c = true ∨ c = '/' := by
  intro c hc
  rcases List.mem_append.mp hc with hc | hc
  · rcases List.mem_append.mp hc with hc | hc
    · exact literal_chars "/services/data/".toList (by decide) c hc
    · exact Or.inl (apiVersion_chars apiVersion h c hc)
  · exact mode_chars queryAll c hc

theorem hexDigits_unreserved (c : Char) (h : c ∈ hexDigits) : unreserved c = true := by
  have hall : hexDigits.all unreserved = true := by decide
  exact List.all_eq_true.mp hall c h

/-- Over a catalog that ATTACH accepts, the service reads off the endpoint of
the mode and the SOQL byte for byte, and no character of the SOQL reaches the
request line in another meaning. -/
theorem query_path_read (lTrim rTrim : Text → Text) (htrim : trimmed lTrim rTrim [] = [])
    (w : AttachWorld) (path : Text) (options : List (Text × Text)) (c : SalesforceConfig)
    (h : parseAndValidate lTrim rTrim w path options = .ok c) (queryAll : Bool) (soql : Text)
    (hsoql : IsBytes soql) :
    readPath (queryPath c.apiVersion queryAll soql) =
        (queryEndpoint c.apiVersion queryAll, some [("q".toList, soql)]) ∧
      (queryPath c.apiVersion queryAll soql).all isPathChar = true := by
  have hversion := (parseAndValidate_valid htrim path options c h).apiVersion
  have hendpoint := endpoint_chars c.apiVersion queryAll hversion
  have hform : readForm (form unreserved [("q".toList, soql)]) = some [("q".toList, soql)] := by
    apply readForm_form unreserved_safe
    intro pair hpair
    rw [List.mem_singleton.mp hpair]
    exact ⟨literal_bytes "q".toList (by decide), hsoql⟩
  have hbare : ∀ d ∈ queryEndpoint c.apiVersion queryAll, decide (d ≠ '?') = true := by
    intro d hd
    apply decide_eq_true
    intro hmark
    rcases hendpoint d hd with hd | hd
    · rw [hmark] at hd
      exact absurd hd (by decide)
    · rw [hmark] at hd
      exact absurd hd (by decide)
  refine ⟨?_, ?_⟩
  · have htake : ('?' :: form unreserved [("q".toList, soql)]).takeWhile (· ≠ '?') = [] := rfl
    have hdrop : ('?' :: form unreserved [("q".toList, soql)]).dropWhile (· ≠ '?') =
        '?' :: form unreserved [("q".toList, soql)] := rfl
    rw [readPath, queryPath_endpoint, query_form, List.takeWhile_append_of_pos hbare,
      List.dropWhile_append_of_pos hbare, htake, hdrop, List.append_nil, List.drop_one,
      List.tail_cons, hform]
  · apply List.all_eq_true.mpr
    intro d hd
    rw [queryPath_endpoint] at hd
    simp only [List.mem_append, List.mem_cons] at hd
    rcases hd with hd | rfl | rfl | rfl | hd
    · rcases hendpoint d hd with hd | hd
      · simp [isPathChar, hd]
      · simp [isPathChar, hd]
    · decide
    · decide
    · decide
    · rcases encode_chars unreserved soql hsoql d hd with hd | hd | hd
      · simp [isPathChar, hd]
      · simp [isPathChar, hd]
      · simp [isPathChar, hexDigits_unreserved d hd]

/-- A literal with the separators of a URL, a line break and UTF-8 bytes. -/
def separatorSoql : Text := "SELECT Id FROM A WHERE N = 'a&q=1+%?\nÃ©'".toList

theorem query_path_read_separators : ∃ c : SalesforceConfig,
    readPath (queryPath c.apiVersion true separatorSoql) =
      ("/services/data/v61.0/queryAll".toList, some [("q".toList, separatorSoql)]) := by
  have hparse : parseAndValidate (List.dropWhile isSpace) (List.rdropWhile isSpace) noEnvironment
      "Salesforce://prod".toList overridden = .ok overriddenConfig := rfl
  exact ⟨overriddenConfig, (query_path_read (List.dropWhile isSpace) (List.rdropWhile isSpace) rfl
    noEnvironment _ overridden overriddenConfig hparse true separatorSoql
    (literal_bytes separatorSoql (by decide))).1⟩

end DuckdbSalesforce
