/-
  Contract/NodeConfig.lean --- which configurations of a provider node are read back.

  `Write` escapes and `Load` does not: it removes quotation marks from both ends of a
  value and takes the rest as it is.  So a text is read back exactly when the quoting
  escapes nothing in it and it has no quotation mark of its own at an end.
-/
import Nuvonode.Foundation.Base64
import Nuvonode.Node.Config

set_option autoImplicit false

namespace Nuvonode.Contract

open Nuvonode.Foundation Nuvonode.Node

/-! ## Texts that are read back -/

section Quoting

variable (U : Unicode)

/-- A rune that is quoted as itself. -/
def PlainPiece (piece : Piece) : Prop :=
  ∃ c, piece = .rune c ∧ U.isPrint c = true ∧ c ≠ '"' ∧ c ≠ '\\'

/-- A text that is quoted as itself and has no apostrophe at an end. -/
structure PlainText (text : GoString) : Prop where
  pieces : ∀ piece ∈ text, PlainPiece U piece
  head : text.head? ≠ some (.rune '\'')
  last : text.getLast? ≠ some (.rune '\'')

/-- How a piece that is not plain is quoted: with a backslash, and no newline or apostrophe at the
end; a quotation mark at the end is the piece itself. -/
structure Escaped (piece : Piece) (quoted : List Char) : Prop where
  shape : ∃ tail last, quoted = '\\' :: (tail ++ [last]) ∧ last ≠ '\'' ∧
    (last = '"' → piece = .rune '"')
  newline : '\n' ∉ quoted

end Quoting

section Pieces

variable {U : Unicode}

theorem lowerHex_mem (n : Nat) : lowerHex n ∈ "0123456789abcdef".toList := by
  have hall : ∀ m < 16, Nat.digitChar m ∈ "0123456789abcdef".toList := by decide
  exact hall _ (Nat.mod_lt _ (by decide))

theorem lowerHex_ne {c : Char} (hc : c ∉ "0123456789abcdef".toList) (n : Nat) : lowerHex n ≠ c :=
  fun heq => hc (heq ▸ lowerHex_mem n)

theorem hexDigits_newline (count n : Nat) : '\n' ∉ hexDigits count n := by
  induction count generalizing n with
  | zero => exact List.not_mem_nil
  | succ count ih =>
      rw [hexDigits, List.mem_append, List.mem_singleton]
      exact not_or.mpr ⟨ih (n / 16), (lowerHex_ne (by decide) n).symm⟩

/-- A number in hexadecimal after a backslash and a letter. -/
theorem escaped_hex {piece : Piece} {letter : Char} (hletter : letter ≠ '\n') (count n : Nat) :
    Escaped piece ('\\' :: letter :: hexDigits (count + 1) n) where
  shape := ⟨letter :: hexDigits count (n / 16), lowerHex n, rfl, lowerHex_ne (by decide) n,
    fun heq => absurd heq (lowerHex_ne (by decide) n)⟩
  newline := by
    simp [hletter.symm, hexDigits_newline]

/-- A letter after a backslash. -/
theorem escaped_letter {piece : Piece} {letter : Char} (hquote : letter ≠ '\'')
    (hnewline : letter ≠ '\n') (hself : letter = '"' → piece = .rune '"') :
    Escaped piece ['\\', letter] where
  shape := ⟨[], letter, rfl, hquote, hself⟩
  newline := by simp [hnewline.symm]

/-- Every piece is plain and quoted as itself, or escaped. -/
theorem escape_cases (piece : Piece) :
    (∃ c, piece = .rune c ∧ U.isPrint c = true ∧ c ≠ '"' ∧ c ≠ '\\' ∧ escape U piece = [c]) ∨
      (¬ PlainPiece U piece ∧ Escaped piece (escape U piece)) := by
  cases piece with
  | byte b =>
      refine .inr ⟨?_, escaped_hex (by decide) 1 _⟩
      rintro ⟨c, hc, -⟩
      cases hc
  | rune c =>
      by_cases hquote : c = '"' ∨ c = '\\'
      · refine .inr ⟨?_, ?_⟩
        · rintro ⟨c', hc', -, hne, hne'⟩
          cases hc'
          exact hquote.elim hne hne'
        · rw [escape, escapeRune, if_pos hquote]
          refine escaped_letter ?_ ?_ fun heq => heq ▸ rfl
          · rintro rfl
            exact absurd hquote (by decide)
          · rintro rfl
            exact absurd hquote (by decide)
      · obtain ⟨hne, hne'⟩ := not_or.mp hquote
        by_cases hprint : U.isPrint c = true
        · refine .inl ⟨c, rfl, hprint, hne, hne', ?_⟩
          rw [escape, escapeRune, if_neg hquote, if_pos hprint]
        · refine .inr ⟨?_, ?_⟩
          · rintro ⟨c', hc', hprint', -⟩
            cases hc'
            exact hprint hprint'
          · rw [escape, escapeRune, if_neg hquote, if_neg hprint]
            repeat' split
            all_goals first
              | exact escaped_letter (by decide) (by decide) (fun h => absurd h (by decide))
              | exact escaped_hex (by decide) _ _

theorem newline_not_mem_escape (piece : Piece) : '\n' ∉ escape U piece := by
  rcases escape_cases piece with ⟨c, -, hprint, -, -, heq⟩ | ⟨-, hescaped⟩
  · rw [heq, List.mem_singleton]
    rintro rfl
    rw [U.isPrint_ascii '\n' (by decide)] at hprint
    exact absurd hprint (by decide)
  · exact hescaped.newline

theorem newline_not_mem_quote (text : GoString) : '\n' ∉ quote U text := by
  unfold quote
  simp only [List.mem_append, List.mem_cons, List.mem_flatMap, List.not_mem_nil, or_false, not_or,
    not_exists, not_and]
  exact ⟨⟨by decide, fun piece _ => newline_not_mem_escape piece⟩, by decide⟩

theorem length_escape_pos (piece : Piece) : 1 ≤ (escape U piece).length := by
  rcases escape_cases piece with ⟨c, -, -, -, -, heq⟩ | ⟨-, hescaped⟩
  · rw [heq]
    exact le_refl _
  · obtain ⟨tail, last, heq, -⟩ := hescaped.shape
    rw [heq]
    simp

theorem plain_of_length_escape {piece : Piece} (h : (escape U piece).length = 1) :
    PlainPiece U piece := by
  rcases escape_cases piece with ⟨c, hc, hprint, hne, hne', -⟩ | ⟨-, hescaped⟩
  · exact ⟨c, hc, hprint, hne, hne'⟩
  · obtain ⟨tail, last, heq, -⟩ := hescaped.shape
    rw [heq] at h
    simp at h

theorem escape_of_plain {c : Char} (h : PlainPiece U (.rune c)) : escape U (.rune c) = [c] := by
  rcases escape_cases (.rune c) with ⟨c', hc', -, -, -, heq⟩ | ⟨hnot, -⟩
  · cases hc'
    exact heq
  · exact absurd h hnot

theorem length_le_flatMap (text : GoString) : text.length ≤ (text.flatMap (escape U)).length := by
  induction text with
  | nil => exact le_refl _
  | cons piece text ih =>
      have := length_escape_pos (U := U) piece
      simp only [List.flatMap_cons, List.length_append, List.length_cons]
      omega

/-- Nothing is escaped in a text whose quoting is as long as the text. -/
theorem plain_of_length_flatMap {text : GoString}
    (h : (text.flatMap (escape U)).length = text.length) : ∀ piece ∈ text, PlainPiece U piece := by
  induction text with
  | nil => simp
  | cons piece text ih =>
      have hpos := length_escape_pos (U := U) piece
      have hle := length_le_flatMap (U := U) text
      simp only [List.flatMap_cons, List.length_append, List.length_cons] at h
      rintro other hmem
      rcases List.mem_cons.mp hmem with rfl | hrest
      · exact plain_of_length_escape (by omega)
      · exact ih (by omega) other hrest

/-- Plain pieces are runes, quoted as themselves. -/
theorem flatMap_of_plain {text : GoString} (h : ∀ piece ∈ text, PlainPiece U piece) :
    goString (text.flatMap (escape U)) = text := by
  induction text with
  | nil => rfl
  | cons piece text ih =>
      obtain ⟨c, rfl, -⟩ := h piece List.mem_cons_self
      rw [List.flatMap_cons, escape_of_plain (h _ List.mem_cons_self)]
      exact congrArg (List.cons _) (ih fun other hother => h other (List.mem_cons_of_mem _ hother))

/-- The quotation marks that `Load` removes. -/
theorem trimQuotes_quote (text : GoString) :
    trimQuotes (quote U text) = trimQuotes (text.flatMap (escape U)) := by
  unfold trimQuotes quote
  rw [trim_concat_pos (by decide), trim_cons_pos (by decide)]

theorem isQuote_iff {c : Char} : (c == '"' || c == '\'') = true ↔ c = '"' ∨ c = '\'' := by
  simp

/-- What a quoted text begins with, where the text begins with no quotation mark. -/
theorem head_flatMap {text : GoString} {c : Char}
    (h : ∀ rune, text.head? = some (.rune rune) → rune ≠ '"' ∧ rune ≠ '\'')
    (hc : (text.flatMap (escape U)).head? = some c) : c ≠ '"' ∧ c ≠ '\'' := by
  cases text with
  | nil => cases hc
  | cons piece text =>
      rw [List.flatMap_cons] at hc
      rcases escape_cases piece with ⟨rune, rfl, -, -, -, heq⟩ | ⟨-, hescaped⟩
      · rw [heq] at hc
        cases hc
        exact h _ rfl
      · obtain ⟨tail, last, heq, -⟩ := hescaped.shape
        rw [heq] at hc
        cases hc
        exact ⟨by decide, by decide⟩

theorem last_flatMap {text : GoString} {c : Char}
    (h : ∀ rune, text.getLast? = some (.rune rune) → rune ≠ '"' ∧ rune ≠ '\'')
    (hc : (text.flatMap (escape U)).getLast? = some c) : c ≠ '"' ∧ c ≠ '\'' := by
  rcases List.eq_nil_or_concat text with rfl | ⟨before, piece, rfl⟩
  · cases hc
  · rw [List.concat_eq_append] at h hc
    rw [List.flatMap_append, List.flatMap_singleton] at hc
    rw [List.getLast?_concat] at h
    rcases escape_cases piece with ⟨rune, rfl, -, -, -, heq⟩ | ⟨-, hescaped⟩
    · rw [heq, List.getLast?_concat] at hc
      cases hc
      exact h _ rfl
    · obtain ⟨tail, last, heq, hlast, hself⟩ := hescaped.shape
      rw [heq, ← List.cons_append, ← List.append_assoc, List.getLast?_concat] at hc
      cases hc
      exact ⟨fun hquote => (h '"' (by rw [hself hquote])).1 rfl, hlast⟩

/-- The ends of a Go string that is a text. -/
theorem head_goString {text : List Char} {rune : Char}
    (h : (goString text).head? = some (.rune rune)) : text.head? = some rune := by
  cases text with
  | nil => cases h
  | cons c text =>
      cases h
      rfl

theorem last_goString {text : List Char} {rune : Char}
    (h : (goString text).getLast? = some (.rune rune)) : text.getLast? = some rune := by
  rw [goString, List.getLast?_map, Option.map_eq_some_iff] at h
  obtain ⟨c, hc, heq⟩ := h
  cases heq
  exact hc

/-- **Which texts are read back.** -/
theorem goString_trimQuotes_iff (text : GoString) :
    goString (trimQuotes (quote U text)) = text ↔ PlainText U text := by
  rw [trimQuotes_quote]
  constructor
  · intro h
    have hquote : ∀ rune, (rune == '"' || rune == '\'') = false → rune ≠ '"' ∧ rune ≠ '\'' :=
      fun rune hnot => not_or.mp fun hor => Bool.eq_false_iff.mp hnot (isQuote_iff.mpr hor)
    have hhead : ∀ rune, text.head? = some (.rune rune) → rune ≠ '"' ∧ rune ≠ '\'' := by
      intro rune hrune
      rw [← h] at hrune
      exact hquote rune (head_trim rune (head_goString hrune))
    have hlast : ∀ rune, text.getLast? = some (.rune rune) → rune ≠ '"' ∧ rune ≠ '\'' := by
      intro rune hrune
      rw [← h] at hrune
      exact hquote rune (last_trim rune (last_goString hrune))
    have hnot : ∀ c : Char, c ≠ '"' ∧ c ≠ '\'' → (c == '"' || c == '\'') = false := fun c hc =>
      Bool.eq_false_iff.mpr fun htrue => (isQuote_iff.mp htrue).elim hc.1 hc.2
    -- With no quotation mark at an end nothing more is removed, so nothing was escaped.
    have hself : trimQuotes (text.flatMap (escape U)) = text.flatMap (escape U) :=
      trim_eq_self (fun c hc => hnot c (head_flatMap hhead hc))
        (fun c hc => hnot c (last_flatMap hlast hc))
    rw [hself] at h
    have hlength : (text.flatMap (escape U)).length = text.length := by
      have := congrArg List.length h
      rwa [goString, List.length_map] at this
    exact
      { pieces := plain_of_length_flatMap hlength
        head := fun heq => (hhead _ heq).2 rfl
        last := fun heq => (hlast _ heq).2 rfl }
  · intro h
    have hplain := flatMap_of_plain h.pieces
    have hends : ∀ c, Piece.rune c ∈ text → c ≠ '"' := by
      intro c hmem
      obtain ⟨c', hc', -, hne, -⟩ := h.pieces _ hmem
      cases hc'
      exact hne
    have hself : trimQuotes (text.flatMap (escape U)) = text.flatMap (escape U) := by
      refine trim_eq_self (fun c hc => ?_) (fun c hc => ?_)
      · have hrune : text.head? = some (.rune c) := by
          rw [← hplain, goString, List.head?_map, hc]
          rfl
        refine Bool.eq_false_iff.mpr fun htrue => (isQuote_iff.mp htrue).elim
          (hends c (List.mem_of_mem_head? hrune)) fun heq => h.head (heq ▸ hrune)
      · have hrune : text.getLast? = some (.rune c) := by
          rw [← hplain, goString, List.getLast?_map, hc]
          rfl
        refine Bool.eq_false_iff.mpr fun htrue => (isQuote_iff.mp htrue).elim
          (hends c (List.mem_of_getLast? hrune)) fun heq => h.last (heq ▸ hrune)
    rw [hself, hplain]

end Pieces

/-! ## Lines that are read back -/

section Lines

variable {U : Unicode}

/-- A key of the file: nothing in it ends a key or starts another kind of line. -/
def isKey (key : String) : Bool :=
  !key.toList.isEmpty && key.toList.all fun c => !isSpace c && c != ':' && c != '#' && c != '-'

/-- A value that trimming leaves alone, on one line. -/
structure Solid (value : List Char) : Prop where
  ne_nil : value ≠ []
  head : ∀ c ∈ value.head?, isSpace c = false
  last : ∀ c ∈ value.getLast?, isSpace c = false
  newline : '\n' ∉ value

theorem Solid.trim_eq {value : List Char} (h : Solid value) : trim isSpace value = value :=
  trim_eq_self h.head h.last

theorem solid_of_all {value : List Char} (hne : value ≠ []) (h : ∀ c ∈ value, isSpace c = false) :
    Solid value where
  ne_nil := hne
  head := fun c hc => h c (List.mem_of_mem_head? hc)
  last := fun c hc => h c (List.mem_of_getLast? hc)
  newline := fun hmem => absurd (h _ hmem) (by decide)

theorem solid_quote (text : GoString) : Solid (quote U text) where
  ne_nil := by simp [quote]
  head := by
    rintro c hc
    cases hc
    decide
  last := by
    intro c hc
    rw [quote, List.getLast?_concat] at hc
    cases hc
    decide
  newline := newline_not_mem_quote text

theorem solid_formatBool (b : Bool) : Solid (formatBool b) := by
  cases b <;> exact solid_of_all (by decide) (by simp [formatBool, isSpace])

theorem isSpace_of_isDigit {c : Char} (h : c.isDigit = true) : isSpace c = false := by
  have hne : ∀ space : Char, space.isDigit = false → (c == space) = false := by
    intro space hspace
    refine beq_eq_false_iff_ne.mpr fun heq => ?_
    rw [← heq, h] at hspace
    cases hspace
  have hrange : ('\u2000' ≤ c) = False := by
    have hhigh : c.val ≤ 57 := by
      simp only [Char.isDigit, Bool.and_eq_true, decide_eq_true_eq] at h
      exact h.2
    refine eq_false fun hle => ?_
    have hbound : ('\u2000' : Char).val ≤ 57 := UInt32.le_trans hle hhigh
    exact absurd hbound (by decide)
  simp only [isSpace, hrange, decide_false, Bool.false_and, hne '\t' rfl, hne '\n' rfl,
    hne '\x0b' rfl, hne '\x0c' rfl, hne '\r' rfl, hne ' ' rfl, hne '\u0085' rfl,
    hne '\u00a0' rfl, hne '\u1680' rfl, hne '\u2028' rfl, hne '\u2029' rfl, hne '\u202f' rfl,
    hne '\u205f' rfl, hne '\u3000' rfl, Bool.or_false]

theorem solid_formatInt (n : Int) : Solid (formatInt n) := by
  have hdigits : ∀ c ∈ Nat.toDigits 10 n.natAbs, isSpace c = false := fun c hc =>
    isSpace_of_isDigit (isDigit_of_mem_toDigits c hc)
  unfold formatInt
  split
  · refine solid_of_all (List.cons_ne_nil _ _) fun c hc => ?_
    rcases List.mem_cons.mp hc with rfl | hrest
    · decide
    · exact hdigits c hrest
  · exact solid_of_all Nat.toDigits_ne_nil hdigits

theorem isKey_iff {key : String} : isKey key = true ↔ key.toList ≠ [] ∧
    ∀ c ∈ key.toList, isSpace c = false ∧ c ≠ ':' ∧ c ≠ '#' ∧ c ≠ '-' := by
  simp [isKey, and_assoc]

theorem getLast?_append_of_ne_nil {before value : List Char} (h : value ≠ []) :
    (before ++ value).getLast? = value.getLast? := by
  rw [List.getLast?_append]
  cases hlast : value.getLast? with
  | none => exact absurd (List.getLast?_eq_none_iff.mp hlast) h
  | some c => rfl

/-- What a line of `Write` begins and ends with. -/
theorem solid_entryLine {key : String} {value : List Char} (hkey : isKey key = true)
    (hvalue : Solid value) : Solid (entryLine key value) where
  ne_nil := by simp [entryLine]
  head := by
    obtain ⟨hne, hall⟩ := isKey_iff.mp hkey
    intro c hc
    have hhead : key.toList.head? = some c := by
      rwa [entryLine, List.head?_append_of_ne_nil _ hne] at hc
    exact (hall c (List.mem_of_mem_head? hhead)).1
  last := by
    intro c hc
    have hsplit : entryLine key value = (key.toList ++ [':', ' ']) ++ value := by
      simp [entryLine]
    rw [hsplit, getLast?_append_of_ne_nil hvalue.ne_nil] at hc
    exact hvalue.last c hc
  newline := by
    obtain ⟨-, hall⟩ := isKey_iff.mp hkey
    simp only [entryLine, List.mem_append, List.mem_cons, not_or]
    exact ⟨fun hmem => absurd (hall _ hmem).1 (by decide), by decide, by decide, hvalue.newline⟩

/-- `Load` reads a line of `Write` as its key and its value. -/
theorem loadLine_entryLine {key : String} {value : List Char} (hkey : isKey key = true)
    (hslugs : key ≠ "allowed_model_slugs") (hvalue : Solid value) (state : Config × Bool) :
    loadLine state (entryLine key value) = (state.1.set key (trimQuotes value), false) := by
  obtain ⟨hne, hall⟩ := isKey_iff.mp hkey
  have hhead : ∀ c, (entryLine key value).head? = some c → c ≠ '#' ∧ c ≠ '-' := by
    intro c hc
    rw [entryLine, List.head?_append_of_ne_nil _ hne] at hc
    exact (hall c (List.mem_of_mem_head? hc)).2.2
  have hcut : cut ':' (entryLine key value) = some (key.toList, ' ' :: value) :=
    cut_append fun hmem => (hall _ hmem).2.1 rfl
  have hkeyTrim : trim isSpace key.toList = key.toList :=
    (solid_of_all hne fun c hc => (hall c hc).1).trim_eq
  have hvalueTrim : trim isSpace (' ' :: value) = value :=
    (trim_cons_pos (by decide)).trans hvalue.trim_eq
  have hskip : ¬ (entryLine key value = [] ∨ (entryLine key value).head? = some '#') :=
    not_or.mpr ⟨(solid_entryLine hkey hvalue).ne_nil, fun hc => (hhead _ hc).1 rfl⟩
  have hentry : ¬ (state.2 = true ∧ (entryLine key value).head? = some '-') :=
    fun hc => (hhead _ hc.2).2 rfl
  unfold loadLine
  simp only [(solid_entryLine hkey hvalue).trim_eq, if_neg hskip, if_neg hentry, hcut, hkeyTrim,
    hvalueTrim, String.ofList_toList, if_neg hslugs]

theorem loadLine_slugs (state : Config × Bool) :
    loadLine state "allowed_model_slugs:".toList = (state.1, true) := by
  have htrim : trim isSpace "allowed_model_slugs:".toList = "allowed_model_slugs:".toList := by
    decide
  have hcut : cut ':' "allowed_model_slugs:".toList = some ("allowed_model_slugs".toList, []) := by
    decide
  have hkey :
      String.ofList (trim isSpace "allowed_model_slugs".toList) = "allowed_model_slugs" := by
    decide
  have hskip : ¬ ("allowed_model_slugs:".toList = [] ∨
      "allowed_model_slugs:".toList.head? = some '#') := by decide
  have hentry : ¬ (state.2 = true ∧ "allowed_model_slugs:".toList.head? = some '-') :=
    fun hc => absurd hc.2 (by decide)
  unfold loadLine
  simp only [htrim, if_neg hskip, if_neg hentry, hcut, hkey, if_true]

theorem loadLine_slugLine (cfg : Config) (slug : GoString) :
    loadLine (cfg, true) (slugLine U slug) =
      ({ cfg with allowedModelSlugs :=
        cfg.allowedModelSlugs ++ [goString (trimQuotes (quote U slug))] }, true) := by
  have hvalue : trim isSpace (' ' :: quote U slug) = quote U slug :=
    (trim_cons_pos (by decide)).trans (solid_quote slug).trim_eq
  have hline : trim isSpace (slugLine U slug) = '-' :: ' ' :: quote U slug := by
    rw [slugLine, trim_cons_pos (by decide), trim_cons_pos (by decide)]
    refine trim_eq_self ?_ ?_
    · rintro c hc
      cases hc
      decide
    · intro c hc
      have hsplit : '-' :: ' ' :: quote U slug = ['-', ' '] ++ quote U slug := rfl
      rw [hsplit, getLast?_append_of_ne_nil (solid_quote slug).ne_nil] at hc
      exact (solid_quote slug).last c hc
  unfold loadLine
  simp [hline, hvalue]

end Lines

/-! ## The file -/

section File

variable (U : Unicode)

/-- A text after it has been written and read. -/
def reread (text : GoString) : GoString := goString (trimQuotes (quote U text))

/-- A configuration after it has been written and read. -/
def reloaded (cfg : Config) : Config :=
  { cfg with
    serverURL := reread U cfg.serverURL
    providerToken := reread U cfg.providerToken
    providerName := reread U cfg.providerName
    instanceKey := reread U cfg.instanceKey
    ollamaURL := reread U cfg.ollamaURL
    logLevel := reread U cfg.logLevel
    allowedModelSlugs := cfg.allowedModelSlugs.map (reread U) }

/-- The texts of a configuration, with their keys in the file. -/
def texts (cfg : Config) : List (String × GoString) :=
  [("server_url", cfg.serverURL), ("provider_token", cfg.providerToken),
    ("provider_name", cfg.providerName), ("instance_key", cfg.instanceKey),
    ("ollama_url", cfg.ollamaURL), ("log_level", cfg.logLevel)]

end File

section Reading

variable {U : Unicode} {cfg : Config}

/-- What holds of every kind of line holds of every line. -/
theorem forall_configLines {P : List Char → Prop}
    (htexts : ∀ entry ∈ texts cfg, P (entryLine entry.1 (quote U entry.2)))
    (hbool : P (entryLine "allow_auto_model_pull" (formatBool cfg.allowAutoModelPull)))
    (hjobs : P (entryLine "max_concurrent_jobs" (formatInt cfg.maxConcurrentJobs.toInt)))
    (hheartbeat : P (entryLine "heartbeat_interval_seconds"
      (formatInt cfg.heartbeatIntervalSeconds.toInt)))
    (hkey : P "allowed_model_slugs:".toList)
    (hslugs : ∀ slug ∈ cfg.allowedModelSlugs, P (slugLine U slug)) :
    ∀ line ∈ configLines U cfg, P line := by
  simp only [texts, List.forall_mem_cons] at htexts
  obtain ⟨hserver, htoken, hname, hinstance, hollama, hlog, -⟩ := htexts
  simp only [configLines, List.forall_mem_append, List.forall_mem_cons, List.forall_mem_map]
  exact ⟨⟨hserver, htoken, hname, hinstance, hollama, hbool, hjobs, hheartbeat, hlog, hkey,
    by simp⟩, hslugs⟩

theorem entryLine_mem_configLines {entry : String × GoString} (h : entry ∈ texts cfg) :
    entryLine entry.1 (quote U entry.2) ∈ configLines U cfg := by
  simp only [texts, List.mem_cons, List.not_mem_nil, or_false] at h
  rcases h with rfl | rfl | rfl | rfl | rfl | rfl <;> simp [configLines]

theorem slugLine_mem_configLines {slug : GoString} (h : slug ∈ cfg.allowedModelSlugs) :
    slugLine U slug ∈ configLines U cfg :=
  List.mem_append_right _ (List.mem_map_of_mem h)

theorem isKey_of_mem_texts : ∀ entry ∈ texts cfg, isKey entry.1 = true := by
  simp only [texts, List.forall_mem_cons]
  exact ⟨by decide, by decide, by decide, by decide, by decide, by decide, by simp⟩

theorem trimQuotes_of_ne {value : List Char} (h : ∀ c ∈ value, c ≠ '"' ∧ c ≠ '\'') :
    trimQuotes value = value := by
  have hnot : ∀ c ∈ value, (c == '"' || c == '\'') = false := fun c hc =>
    Bool.eq_false_iff.mpr fun htrue => (isQuote_iff.mp htrue).elim (h c hc).1 (h c hc).2
  exact trim_eq_self (fun c hc => hnot c (List.mem_of_mem_head? hc))
    (fun c hc => hnot c (List.mem_of_getLast? hc))

theorem trimQuotes_formatBool (b : Bool) : trimQuotes (formatBool b) = formatBool b := by
  cases b <;> exact trimQuotes_of_ne (by simp [formatBool])

theorem trimQuotes_formatInt (n : Int) : trimQuotes (formatInt n) = formatInt n := by
  have hdigit : ∀ c : Char, c.isDigit = true → c ≠ '"' ∧ c ≠ '\'' := by
    intro c hc
    constructor
    · rintro rfl
      cases hc
    · rintro rfl
      cases hc
  refine trimQuotes_of_ne fun c hc => ?_
  unfold formatInt at hc
  split at hc
  · rcases List.mem_cons.mp hc with rfl | hrest
    · exact ⟨by decide, by decide⟩
    · exact hdigit c (isDigit_of_mem_toDigits c hrest)
  · exact hdigit c (isDigit_of_mem_toDigits c hc)

/-- The lines of the slugs, read in list mode. -/
theorem foldl_slugLines (slugs : List GoString) :
    (slugs.map (slugLine U)).foldl loadLine (cfg, true) =
      ({ cfg with allowedModelSlugs := cfg.allowedModelSlugs ++ slugs.map (reread U) }, true) := by
  induction slugs generalizing cfg with
  | nil => simp
  | cons slug slugs ih =>
      rw [List.map_cons, List.foldl_cons, loadLine_slugLine, ih, List.map_cons, List.append_assoc]
      rfl

/-- The lines of a configuration, read from the default one. -/
theorem foldl_configLines :
    (configLines U cfg).foldl loadLine (defaultConfig, false) = (reloaded U cfg, true) := by
  unfold configLines
  simp only [List.foldl_append, List.foldl_cons, List.foldl_nil, loadLine_slugs]
  rw [loadLine_entryLine (by decide) (by decide) (solid_quote _),
    loadLine_entryLine (by decide) (by decide) (solid_quote _),
    loadLine_entryLine (by decide) (by decide) (solid_quote _),
    loadLine_entryLine (by decide) (by decide) (solid_quote _),
    loadLine_entryLine (by decide) (by decide) (solid_quote _),
    loadLine_entryLine (by decide) (by decide) (solid_formatBool _),
    loadLine_entryLine (by decide) (by decide) (solid_formatInt _),
    loadLine_entryLine (by decide) (by decide) (solid_formatInt _),
    loadLine_entryLine (by decide) (by decide) (solid_quote _), foldl_slugLines]
  simp only [Config.set, trimQuotes_formatBool, trimQuotes_formatInt, parseBool_formatBool,
    atoi_formatInt]
  rfl

/-- Every line of the file is on one line and ends in no space. -/
theorem configLines_clean : ∀ line ∈ configLines U cfg,
    '\n' ∉ line ∧ ∀ c ∈ line.getLast?, isSpace c = false := by
  have hsolid : ∀ {line : List Char}, Solid line →
      '\n' ∉ line ∧ ∀ c ∈ line.getLast?, isSpace c = false := fun h => ⟨h.newline, h.last⟩
  refine forall_configLines
    (fun entry hentry => hsolid (solid_entryLine (isKey_of_mem_texts entry hentry) (solid_quote _)))
    (hsolid (solid_entryLine (by decide) (solid_formatBool _)))
    (hsolid (solid_entryLine (by decide) (solid_formatInt _)))
    (hsolid (solid_entryLine (by decide) (solid_formatInt _)))
    (hsolid (solid_of_all (by decide) (by simp [isSpace]))) fun slug _ => ?_
  have hquote := solid_quote (U := U) slug
  refine ⟨?_, fun c hc => ?_⟩
  · simp only [slugLine, List.mem_cons, not_or]
    exact ⟨by decide, by decide, by decide, by decide, hquote.newline⟩
  · have hsplit : slugLine U slug = [' ', ' ', '-', ' '] ++ quote U slug := rfl
    rw [hsplit, getLast?_append_of_ne_nil hquote.ne_nil] at hc
    exact hquote.last c hc

/-- What is read from a file that was written. -/
theorem load_write (token : Token) : load (write U token cfg) =
    if (configLines U (cfg.withKey token)).any tooLong then .error .tokenTooLong
    else .ok (reloaded U (cfg.withKey token)) := by
  have hclean : ∀ line ∈ configLines U (cfg.withKey token),
      '\n' ∉ line ∧ ∀ c ∈ line.getLast?, isSpace c = false := configLines_clean
  have hsplit : splitLines '\n' (write U token cfg) = configLines U (cfg.withKey token) :=
    splitLines_flatMap fun line hline => (hclean line hline).1
  have hdrop : (configLines U (cfg.withKey token)).map dropCR =
      configLines U (cfg.withKey token) := by
    refine (List.map_congr_left fun line hline => ?_).trans (List.map_id _)
    have hcr : line.getLast? ≠ some '\r' := fun heq =>
      absurd ((hclean line hline).2 '\r' heq) (by decide)
    exact if_neg hcr
  unfold load
  simp only [hsplit, hdrop, foldl_configLines]

end Reading

/-! ## The condition -/

/-- The bytes of a piece. -/
def pieceSize : Piece → Nat
  | .rune c => c.utf8Size
  | .byte _ => 1

/-- The bytes of a Go string. -/
def textSize (text : GoString) : Nat := (text.map pieceSize).sum

/-- A configuration whose texts are quoted as themselves, on lines that a scanner can hold. -/
structure RoundTrips (U : Unicode) (cfg : Config) : Prop where
  texts : ∀ entry ∈ texts cfg,
    PlainText U entry.2 ∧ byteLength entry.1.toList + 4 + textSize entry.2 < 65536
  slugs : ∀ slug ∈ cfg.allowedModelSlugs, PlainText U slug ∧ 6 + textSize slug < 65536

section Condition

variable {U : Unicode} {cfg : Config}

@[simp] theorem byteLength_cons (c : Char) (text : List Char) :
    byteLength (c :: text) = c.utf8Size + byteLength text := rfl

@[simp] theorem byteLength_append (text text' : List Char) :
    byteLength (text ++ text') = byteLength text + byteLength text' := by
  simp [byteLength]

theorem byteLength_le (text : List Char) : byteLength text ≤ 4 * text.length := by
  induction text with
  | nil => exact le_refl _
  | cons c text ih =>
      have := Char.utf8Size_le_four c
      rw [byteLength_cons, List.length_cons]
      omega

theorem byteLength_quote {text : GoString} (h : PlainText U text) :
    byteLength (quote U text) = textSize text + 2 := by
  have hsize : textSize text = byteLength (text.flatMap (escape U)) := by
    conv_lhs => rw [← flatMap_of_plain h.pieces]
    rw [textSize, goString, List.map_map]
    rfl
  rw [hsize, quote, List.cons_append, byteLength_cons, byteLength_append]
  have hmark : ('"' : Char).utf8Size = 1 := by decide
  have hend : byteLength ['"'] = 1 := by decide
  omega

theorem tooLong_entryLine (key : String) (value : List Char) :
    tooLong (entryLine key value) =
      decide (65536 ≤ byteLength key.toList + 2 + byteLength value) := by
  have hcolon : (':' : Char).utf8Size = 1 := by decide
  have hspace : (' ' : Char).utf8Size = 1 := by decide
  unfold tooLong entryLine
  rw [byteLength_append, byteLength_cons, byteLength_cons, hcolon, hspace, ← Nat.add_assoc,
    ← Nat.add_assoc]

theorem length_formatInt (n : Int64) : (formatInt n.toInt).length ≤ 20 := by
  have hlow := Int64.le_toInt n
  have hhigh := Int64.toInt_lt n
  have hdigits : (Nat.toDigits 10 n.toInt.natAbs).length ≤ 19 :=
    (Nat.length_toDigits_le_iff (by decide) (by decide)).mpr (by omega)
  unfold formatInt
  split
  · rw [List.length_cons]
    omega
  · omega

/-- The lines without a text fit the scanner. -/
theorem not_tooLong_of_length {key : String} {value : List Char} (hkey : key.length ≤ 30)
    (hvalue : value.length ≤ 20) : tooLong (entryLine key value) = false := by
  have hkeyBytes := byteLength_le key.toList
  have hvalueBytes := byteLength_le value
  rw [String.length_toList] at hkeyBytes
  rw [tooLong_entryLine]
  exact decide_eq_false (by omega)

/-- The lines of a configuration with plain texts that are too long are those of its texts. -/
theorem any_tooLong_iff (htexts : ∀ entry ∈ texts cfg, PlainText U entry.2)
    (hslugs : ∀ slug ∈ cfg.allowedModelSlugs, PlainText U slug) :
    (configLines U cfg).any tooLong = false ↔ RoundTrips U cfg := by
  have hentry : ∀ entry ∈ texts cfg, tooLong (entryLine entry.1 (quote U entry.2)) =
      decide (65536 ≤ byteLength entry.1.toList + 4 + textSize entry.2) := by
    intro entry hentry
    rw [tooLong_entryLine, byteLength_quote (htexts entry hentry)]
    exact decide_eq_decide.mpr (by omega)
  have hslug : ∀ slug ∈ cfg.allowedModelSlugs,
      tooLong (slugLine U slug) = decide (65536 ≤ 6 + textSize slug) := by
    intro slug hslug
    have hspace : (' ' : Char).utf8Size = 1 := by decide
    have hdash : ('-' : Char).utf8Size = 1 := by decide
    have hbytes : byteLength (slugLine U slug) = 4 + byteLength (quote U slug) := by
      simp only [slugLine, byteLength_cons, hspace, hdash]
      omega
    rw [tooLong, hbytes, byteLength_quote (hslugs slug hslug)]
    exact decide_eq_decide.mpr (by omega)
  constructor
  · intro h
    have hall := List.any_eq_false.mp h
    refine
      { texts := fun entry hmem => ⟨htexts entry hmem, ?_⟩
        slugs := fun slug hmem => ⟨hslugs slug hmem, ?_⟩ }
    · have hline := hall _ (entryLine_mem_configLines hmem)
      rw [hentry entry hmem, decide_eq_true_eq] at hline
      omega
    · have hline := hall _ (slugLine_mem_configLines hmem)
      rw [hslug slug hmem, decide_eq_true_eq] at hline
      omega
  · intro h
    refine List.any_eq_false.mpr (forall_configLines (fun entry hmem => ?_) ?_ ?_ ?_ (by decide)
      fun slug hmem => ?_)
    · rw [hentry entry hmem, decide_eq_true_eq]
      exact not_le.mpr (h.texts entry hmem).2
    · refine Bool.eq_false_iff.mp (not_tooLong_of_length (by decide) ?_)
      cases cfg.allowAutoModelPull <;> decide
    · exact Bool.eq_false_iff.mp (not_tooLong_of_length (by decide) (length_formatInt _))
    · exact Bool.eq_false_iff.mp (not_tooLong_of_length (by decide) (length_formatInt _))
    · rw [hslug slug hmem, decide_eq_true_eq]
      exact not_le.mpr (h.slugs slug hmem).2

theorem reloaded_eq_iff : reloaded U cfg = cfg ↔
    (∀ entry ∈ texts cfg, PlainText U entry.2) ∧
      ∀ slug ∈ cfg.allowedModelSlugs, PlainText U slug := by
  have hslugs : cfg.allowedModelSlugs.map (reread U) = cfg.allowedModelSlugs ↔
      ∀ slug ∈ cfg.allowedModelSlugs, PlainText U slug := by
    conv_lhs => rhs; rw [← List.map_id cfg.allowedModelSlugs]
    rw [List.map_inj_left]
    exact forall₂_congr fun slug _ => goString_trimQuotes_iff slug
  rw [← hslugs]
  simp only [texts, List.forall_mem_cons, ← goString_trimQuotes_iff]
  constructor
  · intro h
    exact ⟨⟨congrArg Config.serverURL h, congrArg Config.providerToken h,
      congrArg Config.providerName h, congrArg Config.instanceKey h, congrArg Config.ollamaURL h,
      congrArg Config.logLevel h, by simp⟩, congrArg Config.allowedModelSlugs h⟩
  · rintro ⟨⟨hserver, htoken, hname, hinstance, hollama, hlog, -⟩, hslugs⟩
    simp only [reloaded, reread, hserver, htoken, hname, hinstance, hollama, hlog]
    exact congrArg (fun allowedModelSlugs => { cfg with allowedModelSlugs }) hslugs

theorem isPrint_of_alphabet {c : Char} (h : Base64.IsDigit c) :
    U.isPrint c = true ∧ c ≠ '"' ∧ c ≠ '\\' ∧ c ≠ '\'' := by
  obtain ⟨⟨hlow, hhigh⟩, hne⟩ := Base64.forall_isDigit
    (fun c => (' ' ≤ c ∧ c ≤ '~') ∧ c ≠ '"' ∧ c ≠ '\\' ∧ c ≠ '\'') (by decide) h
  refine ⟨?_, hne⟩
  rw [U.isPrint_ascii c (Base64.toNat_lt_of_isDigit h), decide_eq_true hlow, decide_eq_true hhigh]
  rfl

/-- A text of the URL-safe alphabet is quoted as itself. -/
theorem plainText_of_alphabet {text : List Char}
    (h : ∀ c ∈ text, Base64.IsDigit c) : PlainText U (goString text) := by
  have hchars : ∀ c ∈ text, U.isPrint c = true ∧ c ≠ '"' ∧ c ≠ '\\' ∧ c ≠ '\'' :=
    fun c hc => isPrint_of_alphabet (h c hc)
  have happostrophe : '\'' ∉ text := fun hmem => (hchars _ hmem).2.2.2 rfl
  refine
    { pieces := ?_
      head := fun heq => happostrophe (List.mem_of_mem_head? (head_goString heq))
      last := fun heq => happostrophe (List.mem_of_getLast? (last_goString heq)) }
  intro piece hpiece
  obtain ⟨c, hc, rfl⟩ := List.mem_map.mp hpiece
  obtain ⟨hprint, hquote, hbackslash, -⟩ := hchars c hc
  exact ⟨c, rfl, hprint, hquote, hbackslash⟩

/-- The key that `Write` draws. -/
theorem plainText_key (token : Token) : PlainText U (goString ("inst_".toList ++ token.chars)) := by
  refine plainText_of_alphabet fun c hc => ?_
  cases List.mem_append.mp hc with
  | inl hprefix =>
      have hletters : ∀ c ∈ "inst_".toList, Base64.IsDigit c := by simp [Base64.IsDigit]
      exact hletters c hprefix
  | inr hdrawn => exact token.alphabet c hdrawn

theorem textSize_goString (text : List Char) : textSize (goString text) = byteLength text := by
  rw [textSize, goString, List.map_map]
  rfl

/-- The drawn key changes nothing: it is plain and short, as the empty key is. -/
theorem roundTrips_withKey (token : Token) :
    RoundTrips U (cfg.withKey token) ↔ RoundTrips U cfg := by
  by_cases hempty : cfg.instanceKey = []
  · have hdrawn : PlainText U (goString ("inst_".toList ++ token.chars)) ∧
        byteLength "instance_key".toList + 4 +
          textSize (goString ("inst_".toList ++ token.chars)) < 65536 := by
      refine ⟨plainText_key token, ?_⟩
      have hkey : byteLength "instance_key".toList = 12 := by decide
      have hbytes := byteLength_le ("inst_".toList ++ token.chars)
      have hprefix : "inst_".toList.length = 5 := by decide
      rw [List.length_append, token.length, hprefix] at hbytes
      rw [textSize_goString, hkey]
      omega
    have hnone : PlainText U [] ∧
        byteLength "instance_key".toList + 4 + textSize [] < 65536 :=
      ⟨⟨by simp, by simp, by simp⟩, by decide⟩
    have hkey : cfg.withKey token =
        { cfg with instanceKey := goString ("inst_".toList ++ token.chars) } := if_pos hempty
    rw [hkey]
    constructor
    · intro h
      refine { texts := ?_, slugs := h.slugs }
      have htexts := h.texts
      simp only [texts, List.forall_mem_cons] at htexts ⊢
      obtain ⟨hserver, htoken, hname, -, hrest⟩ := htexts
      exact ⟨hserver, htoken, hname, hempty ▸ hnone, hrest⟩
    · intro h
      refine { texts := ?_, slugs := h.slugs }
      have htexts := h.texts
      simp only [texts, List.forall_mem_cons] at htexts ⊢
      obtain ⟨hserver, htoken, hname, -, hrest⟩ := htexts
      exact ⟨hserver, htoken, hname, hdrawn, hrest⟩
  · have hkey : cfg.withKey token = cfg := if_neg hempty
    rw [hkey]

end Condition

/-- **Which configurations round-trip.** -/
theorem config_round_trips_iff (U : Unicode) (token : Token) (cfg : Config) :
    load (write U token cfg) = .ok (cfg.withKey token) ↔ RoundTrips U cfg := by
  rw [← roundTrips_withKey token, load_write]
  constructor
  · intro h
    split at h
    · cases h
    · rename_i hshort
      obtain ⟨htexts, hslugs⟩ := reloaded_eq_iff.mp (Except.ok.inj h)
      exact (any_tooLong_iff htexts hslugs).mp (Bool.eq_false_iff.mpr hshort)
  · intro h
    have htexts := fun entry hentry => (h.texts entry hentry).1
    have hslugs := fun slug hslug => (h.slugs slug hslug).1
    rw [if_neg (Bool.eq_false_iff.mp ((any_tooLong_iff htexts hslugs).mpr h)),
      reloaded_eq_iff.mpr ⟨htexts, hslugs⟩]

/-- The Unicode tables where nothing beyond ASCII is printable. -/
def asciiTables : Unicode where
  isPrint := fun c => ' ' ≤ c && c ≤ '~'
  isPrint_ascii := fun _ _ => rfl

/-- A configuration whose provider has a name in quotation marks. -/
def quotedName : Config :=
  { defaultConfig with
    providerName := goString "Lab \"A\"".toList
    instanceKey := goString "inst_1".toList }

/-- A token of sixteen letters. -/
def drawnToken : Token where
  chars := List.replicate 16 'a'
  length := rfl
  alphabet := fun _ hc => .inl (List.eq_of_mem_replicate hc ▸ rfl)

/-- A name in quotation marks comes back with backslashes and without its last mark. -/
theorem quoted_name_changes :
    load (write asciiTables drawnToken quotedName) =
        .ok { quotedName with providerName := goString "Lab \\\"A\\".toList } ∧
      load (write asciiTables drawnToken quotedName) ≠ .ok (quotedName.withKey drawnToken) := by
  have hread : load (write asciiTables drawnToken quotedName) =
      .ok { quotedName with providerName := goString "Lab \\\"A\\".toList } := by
    decide +kernel
  refine ⟨hread, fun heq => ?_⟩
  have hsame : ({ quotedName with providerName := goString "Lab \\\"A\\".toList } : Config) =
      quotedName.withKey drawnToken := Except.ok.inj (hread.symm.trans heq)
  exact absurd (congrArg Config.providerName hsame) (by decide)

end Nuvonode.Contract
