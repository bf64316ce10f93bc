/-! # Lexemes of the markup

A document is cut into lexemes from left to right: runs of blanks, line breaks, escapes, commands
with their arguments, runs of ordinary text, and single characters that have no place where they
stand. Main statements: cutting loses nothing (`flatMap_spelling_lexemes`), and no lexeme is empty
(`spelling_ne_nil_of_mem_lexemes`).
-/

namespace Galley

/-- Blanks separate words. -/
def isBlank (char : Char) : Bool :=
  char = ' ' || char = '\t'

/-- Command names consist of ASCII letters. -/
def isLetter (char : Char) : Bool :=
  char.isAlpha

/-- Characters that never belong to ordinary text. -/
def isSpecial (char : Char) : Bool :=
  isBlank char || char = '\r' || char = '\n' || char = '\\' || char = '{' || char = '}'

/-- Characters that a backslash before them makes ordinary. -/
def isEscapable (char : Char) : Bool :=
  isBlank char || char = '{' || char = '}' || char = '\\'

/-- The two spellings of a line break. -/
inductive LineEnd where
  | lf
  | crlf
deriving DecidableEq

/-- The characters of a line break. -/
def LineEnd.spelling : LineEnd → List Char
  | lf => ['\n']
  | crlf => ['\r', '\n']

/-- One lexical unit of a document. -/
inductive Lexeme where
  /-- A maximal run of blanks. -/
  | blank (run : List Char)
  /-- One line break on its own. -/
  | lineBreak (lineEnd : LineEnd)
  /-- Two or more line breaks in a row. -/
  | paragraphBreak (first second : LineEnd) (more : List LineEnd)
  /-- A backslash and the character it makes ordinary. -/
  | escaped (char : Char)
  /-- A command with the argument that immediately follows its name, if any. -/
  | command (name : List Char) (argument : Option (List Char))
  /-- A command whose opening brace has no match, with everything after that brace. -/
  | unclosed (name rest : List Char)
  /-- A maximal run of ordinary characters. -/
  | text (run : List Char)
  /-- A character that cannot stand where it does. -/
  | stray (char : Char)
deriving DecidableEq

/-- The stretch of the document that a lexeme stands for. -/
def Lexeme.spelling : Lexeme → List Char
  | blank run => run
  | lineBreak lineEnd => lineEnd.spelling
  | paragraphBreak first second more =>
      first.spelling ++ second.spelling ++ more.flatMap LineEnd.spelling
  | escaped char => ['\\', char]
  | command name none => '\\' :: name
  | command name (some argument) => '\\' :: name ++ '{' :: argument ++ ['}']
  | unclosed name rest => '\\' :: name ++ '{' :: rest
  | text run => run
  | stray char => [char]

/-- The line breaks at the start of a text, and the text after them. -/
def splitLineEnds : List Char → List LineEnd × List Char
  | '\n' :: rest =>
      let split := splitLineEnds rest
      (.lf :: split.1, split.2)
  | '\r' :: '\n' :: rest =>
      let split := splitLineEnds rest
      (.crlf :: split.1, split.2)
  | rest => ([], rest)

/-- Splitting off the line breaks loses nothing. -/
theorem splitLineEnds_append (text : List Char) :
    (splitLineEnds text).1.flatMap LineEnd.spelling ++ (splitLineEnds text).2 = text := by
  fun_induction splitLineEnds text with
  | case1 rest split ih => simpa [LineEnd.spelling] using ih
  | case2 rest split ih => simpa [LineEnd.spelling] using ih
  | case3 rest => rfl

/-- Split a text after the argument that starts it, at the brace that closes it.

`depth` counts the braces opened inside the argument and not yet closed. A backslash protects the
character after it from being read as a brace. There is no result if no brace closes the argument.
-/
def splitArgument : (depth : Nat) → List Char → Option (List Char × List Char)
  | _, [] => none
  | _, ['\\'] => none
  | depth, '\\' :: char :: rest =>
      (splitArgument depth rest).map fun (argument, after) => ('\\' :: char :: argument, after)
  | depth, '{' :: rest =>
      (splitArgument (depth + 1) rest).map fun (argument, after) => ('{' :: argument, after)
  | 0, '}' :: rest => some ([], rest)
  | depth + 1, '}' :: rest =>
      (splitArgument depth rest).map fun (argument, after) => ('}' :: argument, after)
  | depth, char :: rest =>
      (splitArgument depth rest).map fun (argument, after) => (char :: argument, after)

/-- The argument, its closing brace and the text after it make up the whole. -/
theorem eq_append_of_splitArgument {depth : Nat} {text argument after : List Char}
    (split : splitArgument depth text = some (argument, after)) :
    text = argument ++ '}' :: after := by
  fun_induction splitArgument depth text generalizing argument after with
  | case1 => simp at split
  | case2 => simp at split
  | case3 depth char rest ih =>
      obtain ⟨⟨inner, tail⟩, found, same⟩ := Option.map_eq_some_iff.mp split
      cases same
      simp [ih found]
  | case4 depth rest ih =>
      obtain ⟨⟨inner, tail⟩, found, same⟩ := Option.map_eq_some_iff.mp split
      cases same
      simp [ih found]
  | case5 rest =>
      cases split
      rfl
  | case6 depth rest ih =>
      obtain ⟨⟨inner, tail⟩, found, same⟩ := Option.map_eq_some_iff.mp split
      cases same
      simp [ih found]
  | case7 depth char rest _ _ _ _ _ ih =>
      obtain ⟨⟨inner, tail⟩, found, same⟩ := Option.map_eq_some_iff.mp split
      cases same
      simp [ih found]

namespace Lexeme

/-- The command with a given name, read from the text after the name. -/
def scanCommand (name : List Char) : List Char → Lexeme × List Char
  | '{' :: rest =>
      match splitArgument 0 rest with
      | some (argument, after) => (command name (some argument), after)
      | none => (unclosed name rest, [])
  | rest => (command name none, rest)

/-- The lexeme that starts with a backslash, read from the text after the backslash. -/
def scanBackslash : List Char → Lexeme × List Char
  | [] => (stray '\\', [])
  | char :: rest =>
      if isEscapable char then (escaped char, rest)
      else if isLetter char then
        scanCommand (char :: rest.takeWhile isLetter) (rest.dropWhile isLetter)
      else (stray '\\', char :: rest)

/-- The first lexeme of the text `char :: rest`, and the text after it. -/
def scan (char : Char) (rest : List Char) : Lexeme × List Char :=
  if isBlank char then (blank (char :: rest.takeWhile isBlank), rest.dropWhile isBlank)
  else match splitLineEnds (char :: rest) with
    | ([lineEnd], after) => (lineBreak lineEnd, after)
    | (first :: second :: more, after) => (paragraphBreak first second more, after)
    | ([], _) =>
        if char = '\\' then scanBackslash rest
        else if isSpecial char then (stray char, rest)
        else (text (char :: rest.takeWhile (!isSpecial ·)), rest.dropWhile (!isSpecial ·))

theorem spelling_scanCommand (name rest : List Char) :
    (scanCommand name rest).1.spelling ++ (scanCommand name rest).2 = '\\' :: name ++ rest := by
  unfold scanCommand
  split
  · split
    · rename_i split
      simp [spelling, eq_append_of_splitArgument split]
    · simp [spelling]
  · simp [spelling]

theorem spelling_scanBackslash (rest : List Char) :
    (scanBackslash rest).1.spelling ++ (scanBackslash rest).2 = '\\' :: rest := by
  unfold scanBackslash
  split
  · rfl
  · split
    · rfl
    · split
      · simp [spelling_scanCommand]
      · rfl

/-- The first lexeme and the text after it make up the whole text. -/
theorem spelling_scan (char : Char) (rest : List Char) :
    (scan char rest).1.spelling ++ (scan char rest).2 = char :: rest := by
  unfold scan
  split
  · simp [spelling]
  · have whole := splitLineEnds_append (char :: rest)
    split
    · rename_i split
      simpa [spelling, split] using whole
    · rename_i split
      simpa [spelling, split] using whole
    · split
      · rename_i same
        rw [same, spelling_scanBackslash]
      · split
        · rfl
        · simp [spelling]

/-- No lexeme that is read stands for nothing. -/
theorem spelling_scan_ne_nil (char : Char) (rest : List Char) :
    (scan char rest).1.spelling ≠ [] := by
  unfold scan scanBackslash scanCommand
  (repeat' split) <;> simp [spelling, LineEnd.spelling] <;> split <;> simp

/-- Every step of the lexer leaves a shorter text. -/
theorem length_scan_lt (char : Char) (rest : List Char) :
    (scan char rest).2.length < (char :: rest).length := by
  have whole := congrArg List.length (spelling_scan char rest)
  have positive := List.length_pos_iff.mpr (spelling_scan_ne_nil char rest)
  rw [List.length_append] at whole
  omega

end Lexeme

/-- The lexemes of a text. -/
def lexemes : List Char → List Lexeme
  | [] => []
  | char :: rest =>
      let scanned := Lexeme.scan char rest
      scanned.1 :: lexemes scanned.2
termination_by text => text.length
decreasing_by exact Lexeme.length_scan_lt char rest

/-- The spellings of the lexemes of a text, in order, are the text. -/
theorem flatMap_spelling_lexemes (text : List Char) :
    (lexemes text).flatMap Lexeme.spelling = text := by
  fun_induction lexemes text with
  | case1 => rfl
  | case2 char rest scanned ih => rw [List.flatMap_cons, ih, Lexeme.spelling_scan]

/-- Every lexeme of a text stands for at least one character. -/
theorem spelling_ne_nil_of_mem_lexemes {text : List Char} {lexeme : Lexeme}
    (member : lexeme ∈ lexemes text) : lexeme.spelling ≠ [] := by
  fun_induction lexemes text with
  | case1 => simp at member
  | case2 char rest scanned ih =>
      rcases List.mem_cons.mp member with rfl | later
      · exact Lexeme.spelling_scan_ne_nil char rest
      · exact ih later

end Galley
