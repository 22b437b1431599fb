import Immutavault.SeparatedTexts

/-!
# Lists of shell commands

A fragment of the shell language without expansions: words that are plain or quoted,
redirections of a numbered descriptor to a file, commands joined by `||`, and lists of
these separated by semicolons or ends of lines. Its texts are read character by
character; whatever would be expanded, or is not in the fragment, is not read at all.

What a single command does is a parameter. Commands joined by `||` are run until one
succeeds, and a list is run to its end whatever its entries give. So the status of a list
is the status of its last entry, and says nothing about the others.
-/

namespace Immutavault.ShellLists

open SeparatedTexts

inductive Token where
  | word (text : String)
  | redirect (descriptor : String)
  | semicolon
  | newline
  | alternative
  deriving DecidableEq

/-- Characters that stand for themselves anywhere in a word. -/
def isPlain (character : Char) : Bool :=
  character.isAlphanum ∨ character ∈ ['_', '@', '%', '+', '=', ':', ',', '.', '/', '-']

/-- How the reading of a text stands between two characters. A word that has been digits
only may turn out to number a descriptor. -/
inductive Reading where
  | between
  | bar
  | word (text : List Char) (numeral : Bool)
  | single (text : List Char)
  | double (text : List Char)

/-- A character that does not continue a word. -/
def opening (character : Char) : Option (List Token × Reading) :=
  if character = ' ' ∨ character = '\t' then some ([], .between)
  else if character = '\n' then some ([.newline], .between)
  else if character = ';' then some ([.semicolon], .between)
  else if character = '|' then some ([], .bar)
  else if character = '>' then some ([.redirect "1"], .between)
  else if character = '\'' then some ([], .single [])
  else if character = '"' then some ([], .double [])
  else if isPlain character then some ([], .word [character] character.isDigit)
  else none

/-- Read one character: the tokens that it completes, and how the reading stands then. -/
def step : Reading → Char → Option (List Token × Reading)
  | .between, character => opening character
  | .bar, character => if character = '|' then some ([.alternative], .between) else none
  | .word text numeral, character =>
    if isPlain character then some ([], .word (text ++ [character]) (numeral && character.isDigit))
    else if character = '\'' then some ([], .single text)
    else if character = '"' then some ([], .double text)
    else if character = '>' ∧ numeral then some ([.redirect (String.ofList text)], .between)
    else (opening character).map fun read => (.word (String.ofList text) :: read.1, read.2)
  | .single text, character =>
    if character = '\'' then some ([], .word text false)
    else some ([], .single (text ++ [character]))
  | .double text, character =>
    if character = '"' then some ([], .word text false)
    else if character ∈ ['\\', '$', '`'] then none
    else some ([], .double (text ++ [character]))

/-- Read a text from a given standing on. -/
def scan (reading : Reading) : List Char → Option (List Token × Reading)
  | [] => some ([], reading)
  | character :: rest => (step reading character).bind fun read =>
    (scan read.2 rest).map fun onward => (read.1 ++ onward.1, onward.2)

/-- The token that is complete at the end of a text. -/
def finish : Reading → Option (List Token)
  | .between => some []
  | .word text _ => some [.word (String.ofList text)]
  | _ => none

/-- The tokens of a text. -/
def tokens (text : List Char) : Option (List Token) :=
  (scan .between text).bind fun read => (finish read.2).map fun last => read.1 ++ last

/-- A command: its words, and which descriptor goes to which file. -/
structure Command where
  words : List String
  redirects : List (String × String) := []
  deriving DecidableEq

/-- Each entry is a command with those that are tried after it. -/
abbrev Script := List (Command × List Command)

/-- Words that begin something else than a command. -/
def reservedWords : List String :=
  ["case", "coproc", "do", "done", "elif", "else", "esac", "fi", "for", "function", "if", "in",
    "select", "then", "time", "until", "while"]

/-- A word that names a command: it is not reserved, and no assignment. -/
def isCommandName (word : String) : Bool := word ∉ reservedWords ∧ '=' ∉ word.toList

/-- The words and redirections of a command. -/
def gathered : List Token → Option Command
  | [] => some ⟨[], []⟩
  | .word text :: rest =>
    (gathered rest).map fun command => { command with words := text :: command.words }
  | .redirect descriptor :: .word file :: rest =>
    (gathered rest).map fun command =>
      { command with redirects := (descriptor, file) :: command.redirects }
  | _ => none

def parseCommand (tokens : List Token) : Option Command :=
  (gathered tokens).filter fun command => command.words.head?.any isCommandName

/-- One entry of a list. -/
def parseEntry (tokens : List Token) : Option (Command × List Command) :=
  match (tokens.splitOn .alternative).mapM parseCommand with
  | some (first :: others) => some (first, others)
  | _ => none

/-- The entries of a line; a semicolon may end it. -/
def parseLine (tokens : List Token) : Option Script :=
  let parts := tokens.splitOn .semicolon
  (if parts.getLast? = some [] then parts.dropLast else parts).mapM parseEntry

/-- The entries of all lines. -/
def parse (tokens : List Token) : Option Script :=
  ((tokens.splitOn .newline).mapM parseLine).map List.flatten

section Spelling

/-- A text spells tokens: its last token is a word that may still go on. -/
def Spells (text : List Char) (spelled : List Token) : Prop :=
  ∃ front last numeral, scan .between text = some (front, .word last numeral) ∧
    spelled = front ++ [.word (String.ofList last)]

/-- What follows a part that was read to a known standing is read from there. -/
theorem scan_after {reading next : Reading} {first : List Char} {read : List Token}
    (before : scan reading first = some (read, next)) (second : List Char) :
    scan reading (first ++ second) =
      (scan next second).map fun onward => (read ++ onward.1, onward.2) := by
  induction first generalizing reading read with
  | nil =>
    cases before
    cases onward : scan next second <;> simp [onward]
  | cons character rest inductionHypothesis =>
    simp only [scan, Option.bind_eq_some_iff, Option.map_eq_some_iff] at before
    obtain ⟨here, stepped, onward, later, same⟩ := before
    cases same
    have behind := inductionHypothesis later
    simp only [List.cons_append, scan, stepped, Option.bind_some, behind]
    cases scan onward.2 second <;> simp

/-- A character that neither continues a word nor quotes completes it. -/
theorem scan_word {character : Char} {read : List Token} {next : Reading}
    (ends : isPlain character = false)
    (unquoted : character ≠ '\'' ∧ character ≠ '"' ∧ character ≠ '>')
    (opens : opening character = some (read, next)) (text : List Char) (numeral : Bool) :
    scan (.word text numeral) [character] =
      some (.word (String.ofList text) :: read, next) := by
  simp [scan, step, ends, unquoted.1, unquoted.2.1, unquoted.2.2, opens]

theorem scan_blank (text : List Char) (numeral : Bool) :
    scan (.word text numeral) [' '] = some ([.word (String.ofList text)], .between) :=
  scan_word (by decide) (by decide) rfl text numeral

theorem scan_newline (text : List Char) (numeral : Bool) :
    scan (.word text numeral) ['\n'] = some ([.word (String.ofList text), .newline], .between) :=
  scan_word (by decide) (by decide) rfl text numeral

theorem scan_semicolon (text : List Char) (numeral : Bool) :
    scan (.word text numeral) [';', ' '] =
      some ([.word (String.ofList text), .semicolon], .between) := by
  rw [show [';', ' '] = [';'] ++ [' '] from rfl, scan_after (scan_word (by decide) (by decide) rfl
    text numeral)]
  rfl

theorem scan_alternative (text : List Char) (numeral : Bool) :
    scan (.word text numeral) [' ', '|', '|', ' '] =
      some ([.word (String.ofList text), .alternative], .between) := by
  rw [show [' ', '|', '|', ' '] = [' '] ++ ['|', '|', ' '] from rfl,
    scan_after (scan_blank text numeral)]
  rfl

section Separated

variable {first second separator : List Char} {before after middle : List Token}

/-- Two texts with a separator between them spell the tokens of both, with what the
separator stands for in the middle. -/
theorem spells_separated
    (separates : ∀ text numeral, scan (.word text numeral) separator =
      some (.word (String.ofList text) :: middle, .between))
    (earlier : Spells first before) (later : Spells second after) :
    Spells (first ++ (separator ++ second)) (before ++ (middle ++ after)) := by
  obtain ⟨front, last, numeral, read, rfl⟩ := earlier
  obtain ⟨further, final, digits, onward, rfl⟩ := later
  refine ⟨front ++ (.word (String.ofList last) :: middle ++ further), final, digits, ?_, by simp⟩
  rw [scan_after read, scan_after (separates last numeral), onward]
  simp

/-- Blanks separate words. -/
theorem spells_blank (earlier : Spells first before) (later : Spells second after) :
    Spells (first ++ ([' '] ++ second)) (before ++ after) :=
  spells_separated scan_blank earlier later

theorem spells_alternative (earlier : Spells first before) (later : Spells second after) :
    Spells (first ++ ([' ', '|', '|', ' '] ++ second)) (before ++ .alternative :: after) :=
  spells_separated scan_alternative earlier later

theorem spells_semicolon (earlier : Spells first before) (later : Spells second after) :
    Spells (first ++ ([';', ' '] ++ second)) (before ++ .semicolon :: after) :=
  spells_separated scan_semicolon earlier later

/-- Phrases separated by blanks spell the tokens of all. -/
theorem spells_phrases {texts : List (List Char)} {phrases : List (List Token)}
    (filled : texts ≠ []) (each : List.Forall₂ Spells texts phrases) :
    Spells ([' '].intercalate texts) phrases.flatten := by
  induction each with
  | nil => exact absurd rfl filled
  | cons spelled rest inductionHypothesis =>
    cases rest with
    | nil => simpa using spelled
    | cons next further =>
      rw [List.intercalate_cons_cons, List.append_assoc, List.flatten_cons]
      exact spells_blank spelled (inductionHypothesis (by simp))

/-- Parts of a list are separated by semicolons. -/
theorem spells_list {texts : List (List Char)} {parts : List (List Token)} (filled : texts ≠ [])
    (each : List.Forall₂ Spells texts parts) :
    Spells ([';', ' '].intercalate texts) ([Token.semicolon].intercalate parts) := by
  induction each with
  | nil => exact absurd rfl filled
  | cons spelled rest inductionHypothesis =>
    cases rest with
    | nil => simpa using spelled
    | cons next further =>
      rw [List.intercalate_cons_cons, List.intercalate_cons_cons, List.append_assoc,
        List.append_assoc]
      exact spells_semicolon spelled (inductionHypothesis (by simp))

end Separated

/-- Plain characters spell themselves. -/
theorem scan_plain (text : List Char) (numeral : Bool) {plain : List Char}
    (all : ∀ character ∈ plain, isPlain character = true) :
    ∃ digits, scan (.word text numeral) plain = some ([], .word (text ++ plain) digits) := by
  induction plain generalizing text numeral with
  | nil => exact ⟨numeral, by simp [scan]⟩
  | cons character rest inductionHypothesis =>
    obtain ⟨digits, onward⟩ := inductionHypothesis (text ++ [character])
      (numeral && character.isDigit) fun other member => all other (List.mem_cons_of_mem _ member)
    refine ⟨digits, ?_⟩
    simp [scan, step, all character List.mem_cons_self, onward]

/-- A word of plain characters spells itself. -/
theorem spells_plain {text : List Char} (filled : text ≠ [])
    (all : ∀ character ∈ text, isPlain character = true) :
    Spells text [.word (String.ofList text)] := by
  cases text with
  | nil => exact absurd rfl filled
  | cons character rest =>
    have plain := all character List.mem_cons_self
    have starts : opening character = some ([], .word [character] character.isDigit) := by
      have other : ∀ mark, isPlain mark = false → character ≠ mark := fun mark special same =>
        absurd (plain.symm.trans (same ▸ special)) (by decide)
      simp [opening, other _ (show isPlain ' ' = false by decide),
        other _ (show isPlain '\t' = false by decide),
        other _ (show isPlain '\n' = false by decide),
        other _ (show isPlain ';' = false by decide), other _ (show isPlain '|' = false by decide),
        other _ (show isPlain '>' = false by decide), other _ (show isPlain '\'' = false by decide),
        other _ (show isPlain '"' = false by decide), plain]
    obtain ⟨digits, onward⟩ := scan_plain [character] character.isDigit
      fun other member => all other (List.mem_cons_of_mem _ member)
    refine ⟨[], character :: rest, digits, ?_, rfl⟩
    simp [scan, step, starts, onward]

/-- A text between single quotes, with every single quote of it between double quotes. -/
def singleQuoted (text : List Char) : List Char :=
  '\'' :: (text.flatMap fun character =>
    if character = '\'' then ['\'', '"', '\'', '"', '\''] else [character]) ++ ['\'']

/-- Inside single quotes a text is read as it is. -/
theorem scan_single (prefixed text : List Char) :
    scan (.single prefixed) (text.flatMap fun character =>
      if character = '\'' then ['\'', '"', '\'', '"', '\''] else [character]) =
        some ([], .single (prefixed ++ text)) := by
  induction text generalizing prefixed with
  | nil => simp [scan]
  | cons character rest inductionHypothesis =>
    have once : scan (.single prefixed)
        (if character = '\'' then ['\'', '"', '\'', '"', '\''] else [character]) =
        some ([], .single (prefixed ++ [character])) := by
      by_cases mark : character = '\''
      · subst mark
        simp [scan, step, isPlain]
      · simp [scan, step, mark]
    rw [List.flatMap_cons, scan_after once, inductionHypothesis]
    simp

/-- A quoted text spells the text as one word. -/
theorem spells_singleQuoted (text : List Char) :
    Spells (singleQuoted text) [.word (String.ofList text)] := by
  refine ⟨[], text, false, ?_, rfl⟩
  have opened : scan .between ['\''] = some ([], .single []) := rfl
  rw [singleQuoted, List.cons_append, ← List.singleton_append, scan_after opened,
    scan_after (scan_single [] text)]
  simp [scan, step]

/-- A line that spells tokens has these tokens and the end of the line. -/
theorem tokens_line {text : List Char} {spelled : List Token} (spells : Spells text spelled) :
    tokens (text ++ ['\n']) = some (spelled ++ [.newline]) := by
  obtain ⟨front, last, numeral, read, rfl⟩ := spells
  rw [tokens, scan_after read, scan_newline]
  simp [finish]

/-- A line may end in a semicolon. -/
theorem tokens_closed {text : List Char} {spelled : List Token} (spells : Spells text spelled) :
    tokens (text ++ [';', ' ', '\n']) = some (spelled ++ [.semicolon, .newline]) := by
  obtain ⟨front, last, numeral, read, rfl⟩ := spells
  rw [tokens, scan_after read, show [';', ' ', '\n'] = [';', ' '] ++ ['\n'] from rfl,
    scan_after (scan_semicolon last numeral)]
  simp [finish, scan, step, opening]

end Spelling

section Parsing

/-- Words alone are a command, when the first of them names one. -/
theorem parseCommand_words {name : String} (names : isCommandName name = true)
    (arguments : List String) :
    parseCommand ((name :: arguments).map .word) = some ⟨name :: arguments, []⟩ := by
  have all : ∀ words : List String, gathered (words.map .word) = some ⟨words, []⟩ := by
    intro words
    induction words with
    | nil => rfl
    | cons word rest inductionHypothesis => simp [gathered, inductionHypothesis]
  rw [parseCommand, all]
  simp [names]

theorem parseEntry_single {part : List Token} {command : Command} (alone : .alternative ∉ part)
    (parses : parseCommand part = some command) : parseEntry part = some (command, []) := by
  simp [parseEntry, List.splitOn_eq_singleton alone, parses]

theorem parseEntry_alternative {first second : List Token} {command other : Command}
    (alone : .alternative ∉ first ∧ .alternative ∉ second)
    (parses : parseCommand first = some command) (later : parseCommand second = some other) :
    parseEntry (first ++ .alternative :: second) = some (command, [other]) := by
  simp [parseEntry, List.splitOn_append_cons_self_of_not_mem alone.1,
    List.splitOn_eq_singleton alone.2, parses, later]

/-- No entry is empty. -/
theorem parts_filled {parts : List (List Token)} {entries : Script}
    (each : List.Forall₂ (fun part entry => parseEntry part = some entry) parts entries) :
    [] ∉ parts := by
  induction each with
  | nil => simp
  | cons parses rest inductionHypothesis =>
    intro member
    rcases List.mem_cons.mp member with same | later
    · rw [← same] at parses
      cases parses
    · exact inductionHypothesis later

/-- The parts of a line, separated by semicolons, are the entries of the line. -/
theorem parse_line {parts : List (List Token)} {entries : Script} (filled : parts ≠ [])
    (unseparated : ∀ part ∈ parts, .semicolon ∉ part ∧ .newline ∉ part)
    (each : List.Forall₂ (fun part entry => parseEntry part = some entry) parts entries) :
    parse ([Token.semicolon].intercalate parts ++ [.newline]) = some entries := by
  have unbroken : Token.newline ∉ [Token.semicolon].intercalate parts :=
    not_mem_intercalate (by simp) fun part member => (unseparated part member).2
  have last : parts.getLast? ≠ some [] := fun empty =>
    parts_filled each (List.mem_of_getLast? empty)
  have line : parseLine ([Token.semicolon].intercalate parts) = some entries := by
    rw [parseLine,
      List.splitOn_intercalate _ (fun part member => (unseparated part member).1) filled]
    rw [if_neg last]
    exact mapM_eq_some_iff.mpr each
  have empty : parseLine [] = some [] := rfl
  rw [parse, List.splitOn_append_cons_self_of_not_mem unbroken]
  simp [line, empty]

/-- So they are when a semicolon ends the line. -/
theorem parse_closed {part : List Token} {entry : Command × List Command}
    (unseparated : .semicolon ∉ part ∧ .newline ∉ part) (parses : parseEntry part = some entry) :
    parse (part ++ [.semicolon, .newline]) = some [entry] := by
  have unbroken : Token.newline ∉ part ++ [.semicolon] := by simp [unseparated.2]
  have apart : part ++ [Token.semicolon, .newline] = (part ++ [.semicolon]) ++ [.newline] := by
    simp
  rw [parse, apart, List.splitOn_append_cons_self_of_not_mem unbroken]
  simp [parseLine, List.splitOn_append_cons_self_of_not_mem unseparated.1, parses]

end Parsing

section Running

variable {σ : Type} (exec : Command → σ → Nat × σ)

/-- Try commands until one succeeds. -/
def runEntry (entry : Command × List Command) (state : σ) : Nat × σ :=
  entry.2.foldl (fun done command => if done.1 = 0 then done else exec command done.2)
    (exec entry.1 state)

/-- Run the entries one after another. The status is that of the last one. -/
def runScript (script : Script) (state : σ) : Nat × σ :=
  script.foldl (fun done entry => runEntry exec entry done.2) (0, state)

/-- The script of a text, run; a text that is no script is refused as a whole. -/
def shell (text : List Char) (state : σ) : Nat × σ :=
  match (tokens text).bind parse with
  | some script => runScript exec script state
  | none => (2, state)

end Running

end Immutavault.ShellLists
