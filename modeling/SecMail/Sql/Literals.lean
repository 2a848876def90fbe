import SecMail.Sql.Tokenize
import SecMail.Text.Components

/-!
# Literals in SQL texts

Integers and strings are written into an SQL text and read back from its tokens.  An integer is
written in decimal notation, a string between apostrophes.

* `parserTokens` are the tokens without spaces and comments, and `parserTokens_append` takes one
  token off a text;
* `parserTokens_decimal_append` and `parserTokens_literal` : what is written comes back, whatever
  follows it, as long as it is not taken for a part of the literal;
* `parseLiterals_listSql` : a list of literals in parentheses;
* `parseInsert_sql` : an `insert` statement whose names and values are literals.
-/

namespace SecMail

open Sqlite

/-! ### The tokens of a text -/

/-- The tokens that reach the parser. -/
def parserTokens (z : List Char) : List Token := (tokenize z).filter fun t => t.type != .space

theorem parserTokens_append (type : TokenType) {w z : List Char} (hw : w ≠ [])
    (h : sqlite3GetToken (w ++ z) = (type, w.length)) :
    parserTokens (w ++ z) = if type = .space then parserTokens z else
      ⟨type, w⟩ :: parserTokens z := by
  rw [parserTokens, tokenize_append hw h, List.filter_cons]
  by_cases hspace : type = .space
  · simp [hspace, parserTokens]
  · simp [hspace, parserTokens]

/-! ### Integers -/

/-- The number written by digits and an optional sign. -/
def parseInteger : List Token → Option ℤ
  | [⟨.integer, digits⟩] => some (Nat.ofDigitChars 10 digits 0)
  | [⟨.minus, _⟩, ⟨.integer, digits⟩] => some (-Nat.ofDigitChars 10 digits 0)
  | _ => none

/-- What may follow a number. -/
def EndsNumber (z : List Char) : Prop := ∀ c ∈ z.head?, idChar c = false ∧ c ≠ '.'

theorem endsNumber_nil : EndsNumber [] := by simp [EndsNumber]

theorem endsNumber_cons {c : Char} {z : List Char} (hc : idChar c = false ∧ c ≠ '.') :
    EndsNumber (c :: z) := by
  simpa [EndsNumber] using hc

theorem head?_any_of_endsNumber {p : Char → Bool} {z : List Char} (hz : EndsNumber z)
    (hp : ∀ c, p c = true → idChar c = true) : z.head?.any p = false := by
  rw [Option.any_eq_false]
  intro c hc
  rw [Bool.eq_false_iff]
  intro hpc
  exact absurd ((hp c hpc).symm.trans (hz c hc).1) (by decide)

theorem sqlite3GetToken_digits {w z : List Char} (hw : w ≠ [])
    (hdigit : ∀ c ∈ w, c.isDigit = true) (hz : EndsNumber z) :
    sqlite3GetToken (w ++ z) = (.integer, w.length) := by
  have hid : ∀ c : Char, c.isDigit = true → idChar c = true := by
    intro c hc
    simp [idChar, Char.isAlphanum, hc]
  have hnumber : numberToken (w ++ z) = (.integer, w.length) := by
    have hspan := spanLength_append (p := sqlite3Isdigit) hdigit (head?_any_of_endsNumber hz hid)
    have hnext : (w ++ z)[w.length]? = z.head? := by
      rw [List.getElem?_append_right (le_refl _), Nat.sub_self, List.head?_eq_getElem?]
    have hdot : z.head? ≠ some '.' := fun h => (hz '.' h).2 rfl
    have he : z.head? ≠ some 'e' ∧ z.head? ≠ some 'E' :=
      ⟨fun h => absurd (hz 'e' h).1 (by decide), fun h => absurd (hz 'E' h).1 (by decide)⟩
    have hrest : spanLength idChar z = 0 :=
      spanLength_append (w := []) (by simp) (head?_any_of_endsNumber hz fun _ h => h)
    simp [numberToken, hspan, hnext, hdot, he, hrest]
  obtain ⟨c, w, rfl⟩ := List.exists_cons_of_ne_nil hw
  have hc : sqlite3Isdigit c = true := hdigit c List.mem_cons_self
  rw [List.cons_append] at hnumber ⊢
  -- a digit starts no other token
  simp only [sqlite3GetToken]
  split <;> first | exact absurd hc (by decide) | rw [if_pos hc, hnumber]

theorem parserTokens_digits (m : ℕ) {z : List Char} (hz : EndsNumber z) :
    parserTokens (Nat.toDigits 10 m ++ z) =
      ⟨.integer, Nat.toDigits 10 m⟩ :: parserTokens z := by
  have hget := sqlite3GetToken_digits (Nat.toDigits_ne_nil (n := m) (b := 10))
    (fun c hc => Nat.isDigit_of_mem_toDigits (by omega) (by omega) hc) hz
  rw [parserTokens_append .integer Nat.toDigits_ne_nil hget]
  rfl

/-- The tokens of an integer, and of what follows it. -/
theorem parserTokens_decimal (n : ℤ) {z : List Char} (hz : EndsNumber z) :
    parserTokens (Text.decimal n ++ z) =
      match n with
      | .ofNat m => ⟨.integer, Nat.toDigits 10 m⟩ :: parserTokens z
      | .negSucc m => ⟨.minus, ['-']⟩ :: ⟨.integer, Nat.toDigits 10 (m + 1)⟩ :: parserTokens z := by
  cases n with
  | ofNat m => exact parserTokens_digits m hz
  | negSucc m =>
    have hget : sqlite3GetToken (['-'] ++ (Nat.toDigits 10 (m + 1) ++ z)) = (.minus, 1) := by
      obtain ⟨c, w, hw⟩ := List.exists_cons_of_ne_nil
        (Nat.toDigits_ne_nil (n := m + 1) (b := 10))
      have hc : c ≠ '-' := fun h => Text.toDigits_ne_minus (h ▸ hw)
      rw [hw]
      simp [sqlite3GetToken, hc]
    have hsplit : Text.decimal (.negSucc m) ++ z = ['-'] ++ (Nat.toDigits 10 (m + 1) ++ z) := rfl
    rw [hsplit, parserTokens_append .minus (by decide) hget, parserTokens_digits (m + 1) hz]
    rfl

/-- The number reads back. -/
theorem parseInteger_decimal (n : ℤ) : parseInteger (parserTokens (Text.decimal n)) = some n := by
  have htok := parserTokens_decimal n endsNumber_nil
  rw [List.append_nil] at htok
  rw [htok]
  cases n with
  | ofNat m => simp [parseInteger, parserTokens, tokenize, tokens, Nat.ofDigitChars_ten_toDigits]
  | negSucc m =>
    simp [parseInteger, parserTokens, tokenize, tokens, Nat.ofDigitChars_ten_toDigits,
      Int.negSucc_eq]

/-! ### Strings -/

/-- A string between apostrophes, without one in it. -/
theorem parserTokens_literal {b z : List Char} (hb : '\'' ∉ b) (hz : z.head? ≠ some '\'') :
    parserTokens ('\'' :: (b ++ '\'' :: z)) =
      ⟨.string, '\'' :: (b ++ ['\''])⟩ :: parserTokens z := by
  have hsplit : '\'' :: (b ++ '\'' :: z) = ('\'' :: (b ++ ['\''])) ++ z := by simp
  have hget : sqlite3GetToken ('\'' :: (b ++ ['\'']) ++ z) =
      (.string, ('\'' :: (b ++ ['\''])).length) := by
    rw [← hsplit]
    simp [sqlite3GetToken, literalLength_append hb hz]
  rw [hsplit, parserTokens_append .string (List.cons_ne_nil _ _) hget]
  rfl

theorem sqlite3Dequote_literal {b : List Char} (hb : '\'' ∉ b) :
    sqlite3Dequote ('\'' :: (b ++ ['\''])) = b := by
  simp [sqlite3Dequote, dequoteTail_append hb]

namespace Sqlite

/-! ### Lists of literals -/

/-- A literal. -/
inductive Literal
  | integer (n : ℤ)
  | text (s : List Char)
  deriving DecidableEq

namespace Literal

/-- A literal as it is written. -/
def sql : Literal → List Char
  | .integer n => Text.decimal n
  | .text s => '\'' :: (s ++ ['\''])

/-- The string of a literal has no apostrophe. -/
def Plain : Literal → Prop
  | .integer _ => True
  | .text s => '\'' ∉ s

instance : DecidablePred Plain
  | .integer _ => isTrue trivial
  | .text s => inferInstanceAs (Decidable ('\'' ∉ s))

/-- The tokens of a literal. -/
def tokens : Literal → List Token
  | .integer (.ofNat m) => [⟨.integer, Nat.toDigits 10 m⟩]
  | .integer (.negSucc m) => [⟨.minus, ['-']⟩, ⟨.integer, Nat.toDigits 10 (m + 1)⟩]
  | .text s => [⟨.string, '\'' :: (s ++ ['\''])⟩]

/-- A literal comes back, whatever follows it that is no part of it. -/
theorem parserTokens_sql {l : Literal} (hl : l.Plain) {d : Char} {z : List Char}
    (hd : idChar d = false ∧ d ≠ '.' ∧ d ≠ '\'') :
    parserTokens (l.sql ++ d :: z) = l.tokens ++ parserTokens (d :: z) := by
  cases l with
  | integer n =>
    rw [sql, parserTokens_decimal n (endsNumber_cons ⟨hd.1, hd.2.1⟩)]
    cases n <;> rfl
  | text s =>
    have hsplit : sql (.text s) ++ d :: z = '\'' :: (s ++ '\'' :: d :: z) := by simp [sql]
    rw [hsplit, parserTokens_literal hl (by simpa using hd.2.2)]
    rfl

end Literal

/-- Literals separated by commas. -/
def listSql : List Literal → List Char
  | [] => []
  | [l] => l.sql
  | l :: m :: ls => l.sql ++ ',' :: listSql (m :: ls)

theorem not_mem_listSql {c : Char} {ls : List Literal} (hc : c ≠ ',') (hls : ∀ l ∈ ls, c ∉ l.sql) :
    c ∉ listSql ls := by
  induction ls with
  | nil => simp [listSql]
  | cons l ls ih =>
    obtain ⟨hl, hls⟩ := List.forall_mem_cons.1 hls
    cases ls with
    | nil => exact hl
    | cons m ls => simp [listSql, hl, hc, ih hls]

/-- What comes after a literal of a list: the next one, or the end of the list. -/
def afterLiteral (l : Literal) (d : Token) (rest : Option (List Literal × List Token))
    (ts : List Token) : Option (List Literal × List Token) :=
  if d.type = .comma then rest.map fun r => (l :: r.1, r.2)
  else if d.type = .rp then some ([l], ts)
  else none

/-- The literals up to the closing parenthesis, and the tokens after it. -/
def parseLiterals : List Token → Option (List Literal × List Token)
  | ⟨.minus, _⟩ :: ⟨.integer, digits⟩ :: d :: ts =>
    afterLiteral (.integer (-Nat.ofDigitChars 10 digits 0)) d (parseLiterals ts) ts
  | ⟨.integer, digits⟩ :: d :: ts =>
    afterLiteral (.integer (Nat.ofDigitChars 10 digits 0)) d (parseLiterals ts) ts
  | ⟨.string, literal⟩ :: d :: ts =>
    afterLiteral (.text (sqlite3Dequote literal)) d (parseLiterals ts) ts
  | _ => none

theorem parseLiterals_tokens {l : Literal} (hl : l.Plain) (d : Token) (ts : List Token) :
    parseLiterals (l.tokens ++ d :: ts) = afterLiteral l d (parseLiterals ts) ts := by
  cases l with
  | integer n =>
    cases n with
    | ofNat m => simp [Literal.tokens, parseLiterals, Nat.ofDigitChars_ten_toDigits]
    | negSucc m =>
      simp [Literal.tokens, parseLiterals, Nat.ofDigitChars_ten_toDigits, Int.negSucc_eq]
  | text s => simp [Literal.tokens, parseLiterals, sqlite3Dequote_literal hl]

/-- **A list of literals reads back.** -/
theorem parseLiterals_listSql {ls : List Literal} (hne : ls ≠ []) (hls : ∀ l ∈ ls, l.Plain)
    (z : List Char) :
    parseLiterals (parserTokens (listSql ls ++ ')' :: z)) = some (ls, parserTokens z) := by
  have hcomma : ∀ z, parserTokens (',' :: z) = ⟨.comma, [',']⟩ :: parserTokens z :=
    fun z => parserTokens_append (w := [',']) .comma (by decide) rfl
  have hrp : ∀ z, parserTokens (')' :: z) = ⟨.rp, [')']⟩ :: parserTokens z :=
    fun z => parserTokens_append (w := [')']) .rp (by decide) rfl
  induction ls with
  | nil => exact absurd rfl hne
  | cons l ls ih =>
    obtain ⟨hl, hls⟩ := List.forall_mem_cons.1 hls
    cases ls with
    | nil =>
      rw [listSql, Literal.parserTokens_sql hl (by decide), hrp, parseLiterals_tokens hl]
      rfl
    | cons m ls =>
      have hsplit : listSql (l :: m :: ls) ++ ')' :: z =
          l.sql ++ ',' :: (listSql (m :: ls) ++ ')' :: z) := by simp [listSql]
      rw [hsplit, Literal.parserTokens_sql hl (by decide), hcomma, parseLiterals_tokens hl,
        ih (List.cons_ne_nil _ _) hls]
      rfl

/-! ### `insert` statements -/

/-- An `insert` of one row; the names of the table and of the columns are written as strings. -/
structure Insert where
  table : List Char
  columns : List Literal
  values : List Literal
  deriving DecidableEq

namespace Insert

/-- The statement as it is written. -/
def sql (i : Insert) : List Char :=
  "insert into ".toList ++ (Literal.text i.table).sql ++ " (".toList ++ listSql i.columns ++
    ") values (".toList ++ listSql i.values ++ [')']

/-- The text, from the parts of the statement. -/
theorem sql_mk (table : List Char) (columns values : List Literal) :
    sql ⟨table, columns, values⟩ =
      "insert into ".toList ++ ('\'' :: (table ++ ['\''])) ++ " (".toList ++ listSql columns ++
        ") values (".toList ++ listSql values ++ [')'] := rfl

/-- The statement can be read back. -/
structure Plain (i : Insert) : Prop where
  table : (Literal.text i.table).Plain
  columns_ne_nil : i.columns ≠ []
  columns : ∀ l ∈ i.columns, l.Plain
  values_ne_nil : i.values ≠ []
  values : ∀ l ∈ i.values, l.Plain

end Insert

/-- Read the values of an `insert`. -/
def parseValues (table : List Char) (columns : List Literal) : List Token → Option Insert
  | ⟨.word, values⟩ :: ⟨.lp, _⟩ :: ts =>
    if values = "values".toList then
      match parseLiterals ts with
      | some (values, []) => some ⟨table, columns, values⟩
      | _ => none
    else none
  | _ => none

/-- Read the tokens of such an `insert`. -/
def parseInsert : List Token → Option Insert
  | ⟨.word, insert⟩ :: ⟨.word, into⟩ :: ⟨.string, table⟩ :: ⟨.lp, _⟩ :: ts =>
    if insert = "insert".toList ∧ into = "into".toList then
      (parseLiterals ts).bind fun r => parseValues (sqlite3Dequote table) r.1 r.2
    else none
  | _ => none

theorem parseValues_sql (table : List Char) (columns : List Literal) {values : List Literal}
    (hne : values ≠ []) (hvalues : ∀ l ∈ values, l.Plain) :
    parseValues table columns
      (parserTokens (" values (".toList ++ (listSql values ++ [')']))) =
        some ⟨table, columns, values⟩ := by
  have hsplit : " values (".toList ++ (listSql values ++ [')']) =
      [' '] ++ ("values".toList ++ ([' '] ++ (['('] ++ (listSql values ++ [')'])))) := rfl
  rw [hsplit, parserTokens_append .space (by decide) rfl, parserTokens_append .word (by decide) rfl,
    parserTokens_append .space (by decide) rfl, parserTokens_append .lp (by decide) rfl]
  have hread := parseLiterals_listSql hne hvalues []
  simp only [reduceCtorEq, if_true, if_false, parseValues, hread]
  rfl

/-- **An `insert` reads back.** -/
theorem parseInsert_sql {i : Insert} (hi : i.Plain) :
    parseInsert (parserTokens i.sql) = some i := by
  have hsplit : i.sql = "insert".toList ++ ([' '] ++ ("into".toList ++ ([' '] ++
      ('\'' :: (i.table ++ '\'' :: ([' '] ++ (['('] ++ (listSql i.columns ++ ')' ::
        (" values (".toList ++ (listSql i.values ++ [')'])))))))))) := by
    have hinto : "insert into ".toList =
        "insert".toList ++ ([' '] ++ ("into".toList ++ [' '])) := rfl
    have hlp : " (".toList = [' ', '('] := rfl
    have hrp : ") values (".toList = ')' :: " values (".toList := rfl
    obtain ⟨table, columns, values⟩ := i
    rw [Insert.sql_mk, hinto, hlp, hrp]
    simp only [List.append_assoc, List.cons_append, List.nil_append]
  rw [hsplit, parserTokens_append .word (by decide) rfl, parserTokens_append .space (by decide) rfl,
    parserTokens_append .word (by decide) rfl, parserTokens_append .space (by decide) rfl,
    parserTokens_literal hi.table (by simp), parserTokens_append .space (by decide) rfl,
    parserTokens_append .lp (by decide) rfl]
  simp only [reduceCtorEq, if_true, if_false, parseInsert, and_self,
    parseLiterals_listSql hi.columns_ne_nil hi.columns, Option.bind_some,
    parseValues_sql _ _ hi.values_ne_nil hi.values, sqlite3Dequote_literal hi.table]

end Sqlite

end SecMail
