import Mathlib.Data.List.TakeWhile
import Mathlib.Data.List.Induction

/-!
# The tokenizer of SQLite

`sqlite3GetToken` finds the first token of an SQL text, and `sqlite3Dequote` reads the value of a
string literal.  Both work on NUL-terminated bytes; here a text is a list of characters, its end
stands for the NUL, and a character beyond ASCII for the bytes that encode it, all of which are
identifier characters.

* `tokenize` iterates `sqlite3GetToken`, and `tokenize_append` takes one token off a text;
* `literalLength_append` and `dequoteTail_append` : a text without the quote character is the
  value of the literal that quotes it;
* `not_mem_of_dequote` : no other text is, when nothing after the literal is quoted.
-/

namespace SecMail

namespace Sqlite

/-- The types of tokens; a keyword is a `word`, like an identifier. -/
inductive TokenType
  | space | minus | lp | rp | semi | plus | star | slash | rem | eq | le | ne | lshift | lt | ge
  | rshift | gt | bitor | concat | comma | bitand | bitnot | string | id | illegal | dot | integer
  | float | variable | register | blob | word
  deriving DecidableEq

/-- A token with its text. -/
structure Token where
  type : TokenType
  text : List Char
  deriving DecidableEq

/-! ### Character classes -/

def sqlite3Isspace (c : Char) : Bool := c == ' ' || (0x09 ≤ c.toNat && c.toNat ≤ 0x0d)

def sqlite3Isdigit (c : Char) : Bool := c.isDigit

def sqlite3Isxdigit (c : Char) : Bool :=
  c.isDigit || ('a' ≤ c && c ≤ 'f') || ('A' ≤ c && c ≤ 'F')

/-- Characters of identifiers. -/
def idChar (c : Char) : Bool := c.isAlphanum || c == '_' || c == '$' || 0x80 ≤ c.toNat

/-- The length of the longest prefix of characters satisfying `p`. -/
def spanLength (p : Char → Bool) (z : List Char) : ℕ := (z.takeWhile p).length

/-! ### Parts of the tokenizer -/

/-- The length of a quoted text after its opening quote, the closing quote included; a doubled
quote does not close. -/
def literalLength (delim : Char) : List Char → Option ℕ
  | [] => none
  | [c] => if c = delim then some 1 else none
  | c :: d :: z =>
    if c = delim then
      if d = delim then (literalLength delim z).map (· + 2) else some 1
    else (literalLength delim (d :: z)).map (· + 1)

/-- The length of a comment after its opening, the closing included. -/
def commentLength : List Char → ℕ
  | '*' :: '/' :: _ => 2
  | _ :: z => commentLength z + 1
  | [] => 0

/-- A number: digits, a fraction, an exponent; identifier characters after it are illegal. -/
def numberToken (z : List Char) : TokenType × ℕ :=
  let i := spanLength sqlite3Isdigit z
  let (type, i) :=
    if z[i]? = some '.' then
      (TokenType.float, i + 1 + spanLength sqlite3Isdigit (z.drop (i + 1)))
    else (TokenType.integer, i)
  let (type, i) :=
    if (z[i]? = some 'e' ∨ z[i]? = some 'E') ∧
        ((z[i + 1]?.any sqlite3Isdigit = true) ∨
          ((z[i + 1]? = some '+' ∨ z[i + 1]? = some '-') ∧ z[i + 2]?.any sqlite3Isdigit = true)) then
      (TokenType.float, i + 2 + spanLength sqlite3Isdigit (z.drop (i + 2)))
    else (type, i)
  let k := spanLength idChar (z.drop i)
  (if k = 0 then type else .illegal, i + k)

/-- The rest of a variable after its first character: is it legal, and its length.  `named` says
that an identifier character has been seen. -/
def variableTail : Bool → List Char → Bool × ℕ
  | named, ':' :: ':' :: z => (variableTail named z).map id (· + 2)
  | named, c :: z =>
    if idChar c then (variableTail true z).map id (· + 1)
    else if c = '(' ∧ named = true then
      let k := spanLength (fun c => !sqlite3Isspace c && c != ')') z
      if z[k]? = some ')' then (true, k + 2) else (false, k + 1)
    else (named, 0)
  | named, [] => (named, 0)

/-- A variable that starts with `$`, `@`, `:` or `#`. -/
def variableToken (z : List Char) : TokenType × ℕ :=
  let (legal, k) := variableTail false z
  (if legal then .variable else .illegal, k + 1)

/-- `sqlite3GetToken`: the type and the length of the first token of a text.  A `!` without `=`
takes the next character into its illegal token: a whole one here, the first byte of it in C. -/
def sqlite3GetToken : List Char → TokenType × ℕ
  | [] => (.illegal, 1)
  | c :: z =>
    match c with
    | ' ' | '\t' | '\n' | '\x0c' | '\r' => (.space, 1 + spanLength sqlite3Isspace z)
    | '-' =>
      match z with
      | '-' :: z => (.space, 2 + spanLength (· != '\n') z)
      | _ => (.minus, 1)
    | '(' => (.lp, 1)
    | ')' => (.rp, 1)
    | ';' => (.semi, 1)
    | '+' => (.plus, 1)
    | '*' => (.star, 1)
    | '/' =>
      match z with
      | '*' :: d :: z => (.space, 2 + commentLength (d :: z))
      | _ => (.slash, 1)
    | '%' => (.rem, 1)
    | '=' => (.eq, if z.head? = some '=' then 2 else 1)
    | '<' =>
      match z with
      | '=' :: _ => (.le, 2)
      | '>' :: _ => (.ne, 2)
      | '<' :: _ => (.lshift, 2)
      | _ => (.lt, 1)
    | '>' =>
      match z with
      | '=' :: _ => (.ge, 2)
      | '>' :: _ => (.rshift, 2)
      | _ => (.gt, 1)
    | '!' => (if z.head? = some '=' then .ne else .illegal, 2)
    | '|' => if z.head? = some '|' then (.concat, 2) else (.bitor, 1)
    | ',' => (.comma, 1)
    | '&' => (.bitand, 1)
    | '~' => (.bitnot, 1)
    | '\x60' | '\'' | '"' =>
      match literalLength c z with
      | some n => (if c = '\'' then .string else .id, n + 1)
      | none => (.illegal, z.length + 1)
    | '.' => if z.head?.any sqlite3Isdigit then numberToken (c :: z) else (.dot, 1)
    | '[' =>
      let k := spanLength (· != ']') z
      if z[k]? = some ']' then (.id, k + 2) else (.illegal, k + 1)
    | '?' => (.variable, 1 + spanLength sqlite3Isdigit z)
    | '#' =>
      let k := spanLength sqlite3Isdigit z
      if 0 < k then (.register, 1 + k) else variableToken z
    | '$' | '@' | ':' => variableToken z
    | _ =>
      if sqlite3Isdigit c then numberToken (c :: z)
      else if (c = 'x' ∨ c = 'X') ∧ z.head? = some '\'' then
        let i := spanLength sqlite3Isxdigit z.tail
        if z.tail[i]? = some '\'' ∧ i % 2 = 0 then (.blob, i + 3)
        else
          let i := i + spanLength (· != '\'') (z.tail.drop i)
          (.illegal, if i < z.tail.length then i + 3 else i + 2)
      else if idChar c then (.word, 1 + spanLength idChar z)
      else (.illegal, 1)

/-- `sqlite3Dequote`, after the opening quote. -/
def dequoteTail (quote : Char) : List Char → List Char
  | [] => []
  | [c] => if c = quote then [] else [c]
  | c :: d :: z =>
    if c = quote then
      if d = quote then quote :: dequoteTail quote z else []
    else c :: dequoteTail quote (d :: z)

/-- `sqlite3Dequote`: the text in quotes, each doubled quote once; a text that does not start with
a quote is left as it is. -/
def sqlite3Dequote : List Char → List Char
  | c :: z =>
    if c = '\'' ∨ c = '"' ∨ c = '\x60' then dequoteTail c z
    else if c = '[' then dequoteTail ']' z
    else c :: z
  | [] => []

/-- The tokens of a text, at most `n` of them; a token has at least one character. -/
def tokens : ℕ → List Char → List Token
  | 0, _ => []
  | _, [] => []
  | n + 1, c :: z =>
    let (type, k) := sqlite3GetToken (c :: z)
    ⟨type, (c :: z).take k⟩ :: tokens n (z.drop (k - 1))

/-- The tokens of a text. -/
def tokenize (z : List Char) : List Token := tokens z.length z

/-! ### One token at a time -/

theorem sqlite3Isspace_of_isDigit {c : Char} (hc : c.isDigit = true) :
    sqlite3Isspace c = false := by
  rw [Char.isDigit, Bool.and_eq_true, decide_eq_true_eq] at hc
  have h48 : 48 ≤ c.toNat := UInt32.le_iff_toNat_le.1 hc.1
  have hne : c ≠ ' ' := by
    rintro rfl
    exact absurd h48 (by decide)
  simp only [sqlite3Isspace, beq_eq_false_iff_ne.2 hne, Bool.false_or, Bool.and_eq_false_iff,
    decide_eq_false_iff_not]
  omega

theorem tokenize_cons (c : Char) (z : List Char) :
    tokenize (c :: z) =
      ⟨(sqlite3GetToken (c :: z)).1, (c :: z).take (sqlite3GetToken (c :: z)).2⟩ ::
      tokens z.length (z.drop ((sqlite3GetToken (c :: z)).2 - 1)) := rfl

theorem tokens_of_length_le {n : ℕ} {z : List Char} (h : z.length ≤ n) :
    tokens n z = tokenize z := by
  induction n using Nat.strongRecOn generalizing z with
  | _ n ih =>
    cases z with
    | nil => cases n <;> rfl
    | cons c z =>
      obtain ⟨n, rfl⟩ : ∃ m, n = m + 1 := ⟨n - 1, by simp at h; omega⟩
      have hlen : (z.drop ((sqlite3GetToken (c :: z)).2 - 1)).length ≤ z.length := by simp
      simp only [List.length_cons] at h
      simp only [tokenize, List.length_cons, tokens]
      rw [ih n (by omega) (by omega), ih z.length (by omega) hlen]

/-- The first token is taken off a text. -/
theorem tokenize_append {type : TokenType} {w z : List Char} (hw : w ≠ [])
    (h : sqlite3GetToken (w ++ z) = (type, w.length)) :
    tokenize (w ++ z) = ⟨type, w⟩ :: tokenize z := by
  obtain ⟨c, w, rfl⟩ := List.exists_cons_of_ne_nil hw
  have hdrop : (w ++ z).drop ((c :: w).length - 1) = z := by simp
  have htake : (c :: (w ++ z)).take (c :: w).length = c :: w := by simp
  simp only [List.cons_append] at h ⊢
  rw [tokenize, List.length_cons, tokens]
  simp only [h, hdrop, htake]
  rw [tokens_of_length_le (by simp)]

@[simp] theorem spanLength_nil {p : Char → Bool} : spanLength p [] = 0 := rfl

theorem spanLength_append {p : Char → Bool} {w z : List Char} (hw : ∀ c ∈ w, p c = true)
    (hz : z.head?.any p = false) : spanLength p (w ++ z) = w.length := by
  rw [spanLength, List.takeWhile_append_of_pos hw]
  cases z with
  | nil => simp
  | cons c z => simp_all

/-! ### Literals -/

section Literal

variable {q c : Char} {b z : List Char}

theorem literalLength_cons_of_ne (hc : c ≠ q) :
    literalLength q (c :: z) = (literalLength q z).map (· + 1) := by
  cases z with
  | nil => simp [literalLength, hc]
  | cons d z => simp [literalLength, hc]

theorem literalLength_quote (hz : z.head? ≠ some q) : literalLength q (q :: z) = some 1 := by
  cases z with
  | nil => simp [literalLength]
  | cons d z =>
    have hd : d ≠ q := fun h => hz (by simp [h])
    simp [literalLength, hd]

theorem literalLength_quote_quote :
    literalLength q (q :: q :: z) = (literalLength q z).map (· + 2) := by
  simp [literalLength]

theorem dequoteTail_cons_of_ne (hc : c ≠ q) :
    dequoteTail q (c :: z) = c :: dequoteTail q z := by
  cases z with
  | nil => simp [dequoteTail, hc]
  | cons d z => simp [dequoteTail, hc]

/-- A text without quotes is closed by the next quote, unless that one is doubled. -/
theorem literalLength_append (hb : q ∉ b) (hz : z.head? ≠ some q) :
    literalLength q (b ++ q :: z) = some (b.length + 1) := by
  induction b with
  | nil => exact literalLength_quote hz
  | cons c b ih =>
    have hc : c ≠ q := fun h => hb (h ▸ List.mem_cons_self)
    rw [List.cons_append, literalLength_cons_of_ne hc, ih fun hm => hb (List.mem_cons_of_mem _ hm)]
    rfl

theorem dequoteTail_append (hb : q ∉ b) : dequoteTail q (b ++ [q]) = b := by
  induction b with
  | nil => simp [dequoteTail]
  | cons c b ih =>
    have hc : c ≠ q := fun h => hb (h ▸ List.mem_cons_self)
    rw [List.cons_append, dequoteTail_cons_of_ne hc, ih fun hm => hb (List.mem_cons_of_mem _ hm)]

theorem literalLength_eq_none (hz : q ∉ z) : literalLength q z = none := by
  induction z with
  | nil => rfl
  | cons c z ih =>
    have hc : c ≠ q := fun h => hz (h ▸ List.mem_cons_self)
    rw [literalLength_cons_of_ne hc, ih fun hm => hz (List.mem_cons_of_mem _ hm)]
    rfl

theorem head?_ne_of_not_mem (hz : q ∉ z) : z.head? ≠ some q :=
  fun h => hz (List.mem_of_head? h)

/-- The value of a literal is not longer than the text in it, if nothing after it is quoted. -/
theorem length_dequoteTail_le {n : ℕ} (hz : q ∉ z)
    (h : literalLength q (b ++ q :: z) = some n) :
    (dequoteTail q ((b ++ q :: z).take n)).length ≤ b.length := by
  induction b using List.twoStepInduction generalizing n with
  | nil =>
    rw [List.nil_append, literalLength_quote (head?_ne_of_not_mem hz)] at h
    cases h
    simp [dequoteTail]
  | singleton c =>
    by_cases hc : c = q
    · subst hc
      rw [List.singleton_append, literalLength_quote_quote, literalLength_eq_none hz] at h
      cases h
    · rw [List.singleton_append, literalLength_cons_of_ne hc,
        literalLength_quote (head?_ne_of_not_mem hz)] at h
      cases h
      simp [dequoteTail, hc]
  | cons_cons c d b ih ih' =>
    by_cases hc : c = q
    · subst hc
      by_cases hd : d = c
      · -- a doubled quote is one character of the value
        subst hd
        rw [List.cons_append, List.cons_append, literalLength_quote_quote] at h
        obtain ⟨n, hn, rfl⟩ := Option.map_eq_some_iff.1 h
        have := ih hn
        simp only [List.cons_append, List.take_succ_cons, dequoteTail, if_true, List.length_cons]
        omega
      · rw [List.cons_append, List.cons_append, literalLength_quote (by simp [hd])] at h
        cases h
        simp [dequoteTail]
    · rw [List.cons_append, literalLength_cons_of_ne hc] at h
      obtain ⟨n, hn, rfl⟩ := Option.map_eq_some_iff.1 h
      have := ih' d hn
      rw [List.cons_append, List.take_succ_cons, dequoteTail_cons_of_ne hc]
      simp only [List.length_cons] at this ⊢
      omega

/-- **Only texts without quotes are the value of the literal that quotes them.** -/
theorem not_mem_of_dequote {n : ℕ} (hz : q ∉ z) (h : literalLength q (b ++ q :: z) = some n)
    (hv : dequoteTail q ((b ++ q :: z).take n) = b) : q ∉ b := by
  induction b generalizing n with
  | nil => simp
  | cons c b ih =>
    by_cases hc : c = q
    · exfalso
      subst hc
      cases b with
      | nil =>
        rw [List.singleton_append, literalLength_quote_quote, literalLength_eq_none hz] at h
        cases h
      | cons d b =>
        by_cases hd : d = c
        · -- the value has lost one of the two quotes
          subst hd
          rw [List.cons_append, List.cons_append, literalLength_quote_quote] at h
          obtain ⟨n, hn, rfl⟩ := Option.map_eq_some_iff.1 h
          have hlen := length_dequoteTail_le hz hn
          simp only [List.cons_append, List.take_succ_cons, dequoteTail, if_true] at hv
          rw [(List.cons.inj hv).2, List.length_cons] at hlen
          omega
        · rw [List.cons_append, List.cons_append, literalLength_quote (by simp [hd])] at h
          cases h
          simp [dequoteTail] at hv
    · rw [List.cons_append, literalLength_cons_of_ne hc] at h
      obtain ⟨n, hn, rfl⟩ := Option.map_eq_some_iff.1 h
      rw [List.cons_append, List.take_succ_cons, dequoteTail_cons_of_ne hc] at hv
      have hb := ih hn (List.cons.inj hv).2
      rw [List.mem_cons, not_or]
      exact ⟨fun h => hc h.symm, hb⟩

end Literal

end Sqlite

end SecMail
