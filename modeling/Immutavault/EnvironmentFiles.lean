import Mathlib
import Immutavault.DROrchestrator
import Immutavault.JsonRoundTrips
import Immutavault.ProxmoxImports
import Immutavault.SetupRequests
import Immutavault.ShellLists
import Immutavault.TokenRoundTrips

/-!
# The environment file

Secrets of platforms and storage targets are kept in a file with one variable on each line.
The file is written as a whole: what it holds is read, the nonempty updates replace or follow
it, and every value is quoted as a word of a shell. It is read line by line; a line whose
variable is not written in capital letters, digits and underscores is passed over.

A file is its text. Read in text mode, a carriage return is a line break as well, and lines
are split at it in any case, together with all other characters that end a line.

What the writer quotes and what the reader splits do not fit in two cases. A value with a
line break is written over several lines, and each of them is read by itself. The variables
of a bucket begin with the tag of its name, and one that begins with a digit is passed over.
In both cases the file that is read back is not the updated one; in all others it is.
-/

namespace Immutavault.EnvironmentFiles

open Values DRConfigurations EnterpriseFields SetupRequests
open GuestFiles (Str CodePoint str)
open JsonTexts (Constant Floating Value)
open DROrchestrator (ShlexState shlexWords shlexSplit)
open SessionOwnership (printed)
open SignedTokens (isSurrogate)

section Reading

/-- Names of variables that are read. -/
def isVariable : List Char → Bool
  | [] => false
  | first :: rest => (first.isUpper || first = '_') && rest.all isTagCharacter

/-- What stands before and behind the first equals sign. -/
def splitEquals : List Char → Option (List Char × List Char)
  | [] => none
  | character :: rest =>
    if character = '=' then some ([], rest)
    else (splitEquals rest).map fun parts => (character :: parts.1, parts.2)

/-- A text without the quotes at its two ends. -/
def stripQuotes (text : String) : String :=
  String.ofList (((text.toList.dropWhile (· ∈ ['\'', '"'])).reverse.dropWhile
    (· ∈ ['\'', '"'])).reverse)

/-- The first word of a value, or the value itself when its quotes are not closed. -/
def readValue (value : String) : String :=
  match shlexSplit value with
  | .ok parts => parts.head?.getD ""
  | .error _ => stripQuotes value

/-- The variable on a line, unless the line is empty, a comment or something else. -/
def readLine (raw : String) : Option (String × String) :=
  if trimmed raw = "" ∨ (raw.toList.dropWhile isWhitespace).head? = some '#' then none
  else (splitEquals raw.toList).bind fun parts =>
    let key := trimmed (String.ofList parts.1)
    if isVariable key.toList then some (key, readValue (trimmed (String.ofList parts.2))) else none

/-- The variables of a file; of a repeated one, the last line counts. -/
def envRead : Option String → List (String × String)
  | none => []
  | some text => dictOf ((splitlines text).filterMap readLine)

end Reading

section Writing

/-- Characters that need no quotes. -/
def isSafe (character : Char) : Bool := character.isAlphanum || character ∈ "_@%+=:,./-".toList

/-- A text as one word of a shell. -/
def quote (text : List Char) : List Char :=
  if text ≠ [] ∧ text.all isSafe then text else ShellLists.singleQuoted text

def lineOf (entry : String × String) : List Char :=
  entry.1.toList ++ '=' :: quote entry.2.toList

/-- The text of a file, one line for each variable, in the order of their names. -/
def written (data : List (String × String)) : String :=
  String.ofList (['\n'].intercalate ((data.insertionSort fun one other =>
    one.1 ≤ other.1).map lineOf) ++ ['\n'])

/-- An update as it is written; a lone surrogate cannot be encoded. -/
def encodedPair (update : String × Str) : Except Exn (String × String) :=
  if update.2.any isSurrogate then
    .error ⟨.valueError, "UnicodeEncodeError: surrogates not allowed"⟩
  else .ok (update.1, printed update.2)

/-- Assign all pairs, one behind another. -/
def updated {α : Type} (data updates : List (String × α)) : List (String × α) :=
  updates.foldl (fun entries pair => assign entries pair.1 pair.2) data

/-- The text that replaces a file. It is encoded when it is written, to another file, so
when that raises, the old file is still there. -/
def envWrite (file : Option String) (updates : List (String × Str)) : Except Exn String := do
  let updates ← (updates.filter fun update => update.2 ≠ []).mapM encodedPair
  return written (updated (envRead file) updates)

end Writing

section Dictionaries

variable {α : Type} {entries : List (String × α)} {key : String} {value : α}

theorem under_isSome (member : (key, value) ∈ entries) : ∃ other, under entries key = some other := by
  have found : (entries.reverse.find? fun entry => entry.1 = key).isSome = true :=
    List.find?_isSome.mpr ⟨(key, value), List.mem_reverse.mpr member, by simp⟩
  obtain ⟨entry, located⟩ := Option.isSome_iff_exists.mp found
  exact ⟨entry.2, by rw [under, located]; rfl⟩

theorem under_eq_some_iff (distinct : (entries.map (·.1)).Nodup) :
    under entries key = some value ↔ (key, value) ∈ entries := by
  refine ⟨mem_of_under, fun member => ?_⟩
  obtain ⟨other, found⟩ := under_isSome member
  have same := List.inj_on_of_nodup_map distinct (mem_of_under found) member rfl
  rw [found, (Prod.mk.inj same).2]

theorem under_cons (entry : String × α) (rest : List (String × α)) (key : String) :
    under (entry :: rest) key =
      (under rest key).or (if entry.1 = key then some entry.2 else none) := by
  rw [under, List.reverse_cons, List.find?_append, under]
  cases rest.reverse.find? fun entry => entry.1 = key with
  | some found => rfl
  | none => by_cases same : entry.1 = key <;> simp [same]

theorem keys_assign (entries : List (String × α)) (key : String) (value : α) :
    (assign entries key value).map (·.1) =
      if key ∈ entries.map (·.1) then entries.map (·.1) else entries.map (·.1) ++ [key] := by
  induction entries with
  | nil => rfl
  | cons entry rest inductionHypothesis =>
    by_cases same : entry.1 = key
    · simp [assign, same]
    · have other : ¬ key = entry.1 := fun equal => same equal.symm
      rw [assign, if_neg same, List.map_cons, inductionHypothesis, List.map_cons]
      simp only [List.mem_cons, other, false_or]
      split <;> rfl

theorem nodup_assign (distinct : (entries.map (·.1)).Nodup) (key : String) (value : α) :
    ((assign entries key value).map (·.1)).Nodup := by
  rw [keys_assign]
  split
  · exact distinct
  · rename_i fresh
    exact List.nodup_append.mpr ⟨distinct, List.nodup_singleton key,
      fun name listed other single same => fresh (by
        rw [← List.mem_singleton.mp single, ← same]
        exact listed)⟩

theorem under_assign (distinct : (entries.map (·.1)).Nodup) (key : String) (value : α)
    (asked : String) :
    under (assign entries key value) asked =
      if key = asked then some value else under entries asked := by
  induction entries with
  | nil => rw [assign, under_cons]; rfl
  | cons entry rest inductionHypothesis =>
    obtain ⟨fresh, distinct⟩ := List.nodup_cons.mp distinct
    have absent : under rest entry.1 = none := by
      rw [Option.eq_none_iff_forall_ne_some]
      exact fun other found => fresh (List.mem_map.mpr ⟨_, mem_of_under found, rfl⟩)
    rw [assign]
    by_cases same : entry.1 = key
    · subst same
      rw [if_pos rfl, under_cons, under_cons]
      by_cases own : entry.1 = asked
      · subst own
        simp [absent]
      · simp [own]
    · rw [if_neg same, under_cons, inductionHypothesis distinct, under_cons]
      by_cases own : key = asked
      · simp [own]
      · simp [own]

theorem nodup_updated {data : List (String × α)} (distinct : (data.map (·.1)).Nodup)
    (updates : List (String × α)) : ((updated data updates).map (·.1)).Nodup := by
  induction updates generalizing data with
  | nil => exact distinct
  | cons pair rest inductionHypothesis => exact inductionHypothesis (nodup_assign distinct _ _)

/-- Updates override what was there and nothing else. -/
theorem under_updated {data : List (String × α)} (distinct : (data.map (·.1)).Nodup)
    (updates : List (String × α)) (key : String) :
    under (updated data updates) key = (under updates key).or (under data key) := by
  induction updates generalizing data with
  | nil => rfl
  | cons pair rest inductionHypothesis =>
    rw [under_cons, Option.or_assoc]
    refine (inductionHypothesis (nodup_assign distinct pair.1 pair.2)).trans ?_
    rw [under_assign distinct]
    congr 1
    split <;> rfl

/-- A dictionary is looked up as the pairs that it was read from. -/
theorem under_dictOf (pairs : List (String × α)) (key : String) :
    under (dictOf pairs) key = under pairs key := by
  have empty : (([] : List (String × α)).map (·.1)).Nodup := List.nodup_nil
  refine (under_updated empty pairs key).trans ?_
  cases under pairs key <;> rfl

theorem nodup_dictOf (pairs : List (String × α)) : ((dictOf pairs).map (·.1)).Nodup := by
  have empty : (([] : List (String × α)).map (·.1)).Nodup := List.nodup_nil
  exact nodup_updated empty pairs

end Dictionaries

section Quoting

/-- No character of a text ends a line. -/
def OneLine (text : String) : Prop := ∀ character ∈ text.toList, isLineBreak character = false

/-- A text whose last character ends no line is split by itself, whatever lines follow. -/
theorem linesAfter_append {current text rest : List Char}
    (closed : ∃ last, text.getLast? = some last ∧ isLineBreak last = false) :
    linesAfter current (text ++ '\n' :: rest) = linesAfter current text ++ linesAfter [] rest := by
  obtain ⟨last, ends, plain⟩ := closed
  fun_induction linesAfter current text with
  | case1 => cases ends
  | case2 => cases ends
  | case3 current further inductionHypothesis =>
    have filled : further ≠ [] := by
      rintro rfl
      obtain rfl := Option.some.inj ends
      exact absurd plain (by decide)
    rw [List.getLast?_cons_of_ne_nil (by simp), List.getLast?_cons_of_ne_nil filled] at ends
    rw [List.cons_append, List.cons_append, linesAfter, inductionHypothesis ends, List.cons_append]
  | case4 current character further other breaks inductionHypothesis =>
    have filled : further ≠ [] := by
      rintro rfl
      have same : character = last := Option.some.inj ends
      rw [← same, breaks] at plain
      cases plain
    obtain ⟨second, more, rfl⟩ := List.exists_cons_of_ne_nil filled
    rw [List.getLast?_cons_cons] at ends
    rw [List.cons_append, linesAfter.eq_3 _ _ _ fun tail first same => other more first (by
      rw [(List.cons.inj same).1]), if_pos breaks, inductionHypothesis ends, List.cons_append]
  | case5 current character further other continues inductionHypothesis =>
    cases further with
    | nil =>
      rw [List.cons_append, linesAfter.eq_3 _ _ _ fun tail first same => by
        subst first
        exact continues (by decide), if_neg continues, List.nil_append,
        linesAfter.eq_3 _ _ _ (by simp), if_pos (by decide)]
      rfl
    | cons second more =>
      rw [List.getLast?_cons_cons] at ends
      rw [List.cons_append, linesAfter.eq_3 _ _ _ fun tail first same => other more first (by
        rw [(List.cons.inj same).1]), if_neg continues, inductionHypothesis ends]

/-- Joined texts are split one by one. -/
theorem linesAfter_joined {texts : List (List Char)}
    (closed : ∀ text ∈ texts, ∃ last, text.getLast? = some last ∧ isLineBreak last = false)
    (filled : texts ≠ []) :
    linesAfter [] (['\n'].intercalate texts ++ ['\n']) = texts.flatMap (linesAfter []) := by
  induction texts with
  | nil => exact absurd rfl filled
  | cons text rest inductionHypothesis =>
    obtain ⟨own, others⟩ := List.forall_mem_cons.mp closed
    cases rest with
    | nil =>
      rw [List.intercalate_singleton, linesAfter_append own]
      simp [linesAfter]
    | cons second further =>
      rw [List.intercalate_cons_cons, List.append_assoc, List.append_assoc,
        List.singleton_append, linesAfter_append own, inductionHypothesis others (by simp)]
      rfl

/-- A filled text without line breaks is one line. -/
theorem linesAfter_line {line : List Char}
    (clean : ∀ character ∈ line, isLineBreak character = false) (current : List Char)
    (filled : current ++ line ≠ []) :
    linesAfter current line = [String.ofList (current.reverse ++ line)] := by
  induction line generalizing current with
  | nil =>
    rw [List.append_nil] at filled
    rw [linesAfter, if_neg filled, List.append_nil]
  | cons character line inductionHypothesis =>
    obtain ⟨own, others⟩ := List.forall_mem_cons.mp clean
    have notReturn : character ≠ '\r' := by
      rintro rfl
      exact absurd own (by decide)
    rw [linesAfter.eq_3 _ _ _ (fun _ same _ => notReturn same), own, if_neg (by decide),
      inductionHypothesis others _ (by simp)]
    simp

/-- A character that needs no quotes continues a word. -/
theorem shlexWords_cons {character : Char} (safe : isSafe character = true) (rest : List Char)
    (word : Option (List Char)) : shlexWords (character :: rest) .plain word =
      shlexWords rest .plain (some (word.getD [] ++ [character])) := by
  have blank : ¬ character ∈ [' ', '\t', '\r', '\n'] := by
    intro member
    simp only [List.mem_cons, List.not_mem_nil, or_false] at member
    rcases member with rfl | rfl | rfl | rfl <;> exact absurd safe (by decide)
  have backslash : ¬ character = '\\' := by
    rintro rfl
    exact absurd safe (by decide)
  have mark : ¬ character ∈ ['\'', '"'] := by
    intro member
    simp only [List.mem_cons, List.not_mem_nil, or_false] at member
    rcases member with rfl | rfl <;> exact absurd safe (by decide)
  rw [shlexWords, if_neg blank, if_neg backslash, if_neg mark]

theorem shlexWords_safe {text : List Char} (safe : text.all isSafe = true) (word : List Char) :
    shlexWords text .plain (some word) = .ok [word ++ text] := by
  induction text generalizing word with
  | nil => simp [shlexWords]
  | cons character rest inductionHypothesis =>
    obtain ⟨own, others⟩ := Bool.and_eq_true_iff.mp safe
    rw [shlexWords_cons own, inductionHypothesis others, Option.getD_some, List.append_assoc,
      List.singleton_append]

/-- Inside single quotes, a text is read as it is. -/
theorem shlexWords_single (text word : List Char) :
    shlexWords ((text.flatMap fun character =>
      if character = '\'' then ['\'', '"', '\'', '"', '\''] else [character]) ++ ['\''])
        (.quoted '\'') (some word) = .ok [word ++ text] := by
  induction text generalizing word with
  | nil => simp [shlexWords]
  | cons character rest inductionHypothesis =>
    rw [List.flatMap_cons]
    by_cases mark : character = '\''
    · subst mark
      rw [if_pos rfl, List.append_assoc]
      have step := inductionHypothesis (word ++ ['\''])
      simp only [List.append_assoc, List.singleton_append] at step
      simpa [shlexWords] using step
    · rw [if_neg mark, List.append_assoc, List.singleton_append, shlexWords, if_neg mark,
        if_neg (by simp), Option.getD_some, inductionHypothesis, List.append_assoc,
        List.singleton_append]

/-- A quoted text is read as one word. -/
theorem shlexSplit_quote (text : String) :
    shlexSplit (String.ofList (quote text.toList)) = .ok [text] := by
  have words : shlexWords (quote text.toList) .plain none = .ok [text.toList] := by
    unfold quote
    split
    · rename_i safe
      obtain ⟨filled, safe⟩ := safe
      cases shape : text.toList with
      | nil => exact absurd shape filled
      | cons character rest =>
        rw [shape] at safe
        obtain ⟨own, others⟩ := Bool.and_eq_true_iff.mp safe
        rw [shlexWords_cons own, shlexWords_safe others]
        rfl
    · rw [ShellLists.singleQuoted]
      have opened := shlexWords_single text.toList []
      simpa [shlexWords] using opened
  rw [shlexSplit, String.toList_ofList, words, ok_bind]
  simp
  rfl

theorem mem_quote {text : List Char} {character : Char} (member : character ∈ quote text) :
    character ∈ text ∨ character = '\'' ∨ character = '"' := by
  unfold quote at member
  split at member
  · exact Or.inl member
  · rw [ShellLists.singleQuoted, List.cons_append, List.mem_cons, List.mem_append,
      List.mem_flatMap, List.mem_singleton] at member
    rcases member with rfl | ⟨inner, listed, within⟩ | rfl
    · exact Or.inr (Or.inl rfl)
    · split at within
      · simp only [List.mem_cons, List.not_mem_nil, or_false] at within
        exact Or.inr (by tauto)
      · exact Or.inl (List.mem_singleton.mp within ▸ listed)
    · exact Or.inr (Or.inl rfl)

theorem isWhitespace_safe {character : Char} (safe : isSafe character = true) :
    isWhitespace character = false := by
  rw [isSafe, Bool.or_eq_true, decide_eq_true_eq] at safe
  rcases safe with letter | listed
  · simp only [Char.isAlphanum, Char.isAlpha, Char.isUpper, Char.isLower, Char.isDigit,
      Bool.or_eq_true, Bool.and_eq_true, decide_eq_true_eq, UInt32.le_iff_toNat_le] at letter
    simp only [isWhitespace, decide_eq_false_iff_not, Char.toNat]
    have bounds : 'A'.val.toNat = 65 ∧ 'Z'.val.toNat = 90 ∧ 'a'.val.toNat = 97 ∧
      'z'.val.toNat = 122 ∧ '0'.val.toNat = 48 ∧ '9'.val.toNat = 57 := by decide
    omega
  · have all : "_@%+=:,./-".toList.all (fun other => !isWhitespace other) = true := by decide
    simpa using List.all_eq_true.mp all character listed

/-- Quoted texts have no white space at their ends. -/
theorem trimmed_quote (text : List Char) :
    trimmed (String.ofList (quote text)) = String.ofList (quote text) := by
  have ends : ∃ first last rest front, quote text = first :: rest ∧ quote text = front ++ [last] ∧
      isWhitespace first = false ∧ isWhitespace last = false := by
    unfold quote
    split
    · rename_i safe
      have plain : ∀ character ∈ text, isWhitespace character = false := fun character member =>
        isWhitespace_safe (List.all_eq_true.mp safe.2 character member)
      exact ⟨text.head safe.1, text.getLast safe.1, text.tail, text.dropLast,
        (List.cons_head_tail safe.1).symm, (List.dropLast_append_getLast safe.1).symm,
        plain _ (List.head_mem safe.1), plain _ (List.getLast_mem safe.1)⟩
    · exact ⟨'\'', '\'', _, _, rfl, rfl, by decide, by decide⟩
  obtain ⟨first, last, rest, front, begins, closes, filled, closed⟩ := ends
  exact ProxmoxImports.trimmed_self (String.toList_ofList.trans begins)
    (String.toList_ofList.trans closes) filled closed

theorem isWhitespace_tag {character : Char} (kept : isTagCharacter character = true) :
    isWhitespace character = false := by
  refine isWhitespace_safe ?_
  simp only [isTagCharacter, Bool.or_eq_true, decide_eq_true_eq] at kept
  rcases kept with (upper | digit) | rfl
  · simp [isSafe, Char.isAlphanum, Char.isAlpha, upper]
  · simp [isSafe, Char.isAlphanum, digit]
  · decide

theorem variable_characters {name : List Char} (named : isVariable name = true) :
    name ≠ [] ∧ ∀ character ∈ name, isTagCharacter character = true := by
  cases name with
  | nil => cases named
  | cons first rest =>
    rw [isVariable, Bool.and_eq_true] at named
    refine ⟨List.cons_ne_nil _ _, List.forall_mem_cons.mpr ⟨?_, List.all_eq_true.mp named.2⟩⟩
    rw [isTagCharacter]
    rcases Bool.or_eq_true_iff.mp named.1 with upper | mark
    · rw [upper]
      rfl
    · rw [mark, Bool.or_true]

theorem splitEquals_line {name rest : List Char} (absent : '=' ∉ name) :
    splitEquals (name ++ '=' :: rest) = some (name, rest) := by
  induction name with
  | nil => simp [splitEquals]
  | cons character name inductionHypothesis =>
    have other : ¬ character = '=' := fun same => absent (same ▸ List.mem_cons_self)
    rw [List.cons_append, splitEquals, if_neg other,
      inductionHypothesis fun later => absent (List.mem_cons_of_mem _ later)]
    rfl

/-- A line that assigns a variable is read as its assignment. -/
theorem readLine_assignment {key : String} (named : isVariable key.toList = true)
    (behind : List Char) : readLine (String.ofList (key.toList ++ '=' :: behind)) =
      some (key, readValue (trimmed (String.ofList behind))) := by
  obtain ⟨filled, characters⟩ := variable_characters named
  obtain ⟨first, rest, shape⟩ := List.exists_cons_of_ne_nil filled
  have own : isTagCharacter first = true := characters first (shape ▸ List.mem_cons_self)
  have begins : key.toList ++ '=' :: behind = first :: (rest ++ '=' :: behind) := by
    rw [shape, List.cons_append]
  have blank := isWhitespace_tag own
  have leading : (key.toList ++ '=' :: behind).dropWhile isWhitespace =
      key.toList ++ '=' :: behind := by
    rw [begins, List.dropWhile_cons_of_neg (by simp [blank])]
  have notComment : ¬ (key.toList ++ '=' :: behind).head? = some '#' := by
    rw [begins]
    intro same
    obtain rfl : first = '#' := Option.some.inj same
    exact absurd own (by decide)
  have notEmpty : ¬ trimmed (String.ofList (key.toList ++ '=' :: behind)) = "" := by
    intro empty
    have nothing := congrArg String.toList empty
    rw [trimmed, String.toList_ofList, String.toList_ofList, leading, String.toList_empty,
      List.reverse_eq_nil_iff, List.dropWhile_eq_nil_iff] at nothing
    have white := nothing first (List.mem_reverse.mpr (begins ▸ List.mem_cons_self))
    exact absurd (blank.symm.trans white) (by decide)
  have noEquals : '=' ∉ key.toList := fun member => absurd (characters '=' member) (by decide)
  have trimmedKey : trimmed (String.ofList key.toList) = key := by
    rw [String.ofList_toList]
    have whole := List.dropLast_append_getLast filled
    exact ProxmoxImports.trimmed_self shape whole.symm blank
      (isWhitespace_tag (characters _ (List.getLast_mem filled)))
  rw [readLine, String.toList_ofList, leading, if_neg (not_or.mpr ⟨notEmpty, notComment⟩),
    splitEquals_line noEquals, Option.bind_some]
  simp only [trimmedKey, named, if_true]

/-- A line that was written is read as its entry. -/
theorem readLine_lineOf {entry : String × String} (named : isVariable entry.1.toList = true) :
    readLine (String.ofList (lineOf entry)) = some entry := by
  rw [lineOf, readLine_assignment named, trimmed_quote, readValue, shlexSplit_quote]
  rfl

end Quoting

section Contents

/-- Words hold what the text holds, but for the escape character. -/
theorem shlexWords_within {holds : Char → Prop} (escape : holds '\\') {text : List Char}
    {state : ShlexState} {word : Option (List Char)} {words : List (List Char)}
    (inner : ∀ character ∈ text, holds character)
    (begun : ∀ character ∈ word.getD [], holds character)
    (ran : shlexWords text state word = .ok words) :
    ∀ part ∈ words, ∀ character ∈ part, holds character := by
  induction text generalizing state word words with
  | nil =>
    cases state with
    | plain =>
      obtain rfl : word.toList = words := Except.ok.inj ran
      cases word with
      | none => exact fun part member => absurd member List.not_mem_nil
      | some content => exact fun part member => List.mem_singleton.mp member ▸ begun
    | quoted quote => cases ran
    | escaped inside => cases ran
  | cons character rest inductionHypothesis =>
    obtain ⟨own, others⟩ := List.forall_mem_cons.mp inner
    have grown : ∀ kept : List Char, (∀ mark ∈ kept, holds mark) →
        ∀ mark ∈ (some (word.getD [] ++ kept ++ [character])).getD [], holds mark := by
      intro kept fine mark member
      rcases List.mem_append.mp member with before | last
      · exact (List.mem_append.mp before).elim (begun mark) (fine mark)
      · exact List.mem_singleton.mp last ▸ own
    have longer := grown [] fun mark member => absurd member List.not_mem_nil
    rw [List.append_nil] at longer
    cases state with
    | plain =>
      rw [shlexWords] at ran
      split at ran
      · obtain ⟨later, read, done⟩ := bind_eq_ok.mp ran
        obtain rfl := Except.ok.inj done
        have tail := inductionHypothesis others
          (fun mark member => absurd member List.not_mem_nil) read
        intro part member
        rcases List.mem_append.mp member with first | behind
        · cases word with
          | none => exact absurd first List.not_mem_nil
          | some content => exact List.mem_singleton.mp first ▸ begun
        · exact tail part behind
      · split at ran
        · exact inductionHypothesis others begun ran
        · split at ran
          · refine inductionHypothesis others ?_ ran
            exact begun
          · exact inductionHypothesis others longer ran
    | quoted quote =>
      rw [shlexWords] at ran
      split at ran
      · exact inductionHypothesis others begun ran
      · split at ran
        · exact inductionHypothesis others begun ran
        · exact inductionHypothesis others longer ran
    | escaped inside =>
      cases inside with
      | none => exact inductionHypothesis others longer ran
      | some quote =>
        refine inductionHypothesis others (grown _ ?_) ran
        split
        · exact fun mark member => absurd member List.not_mem_nil
        · exact fun mark member => List.mem_singleton.mp member ▸ escape

/-- Lines hold no line break. -/
theorem linesAfter_clean {current text : List Char}
    (begun : ∀ character ∈ current, isLineBreak character = false) :
    ∀ line ∈ linesAfter current text, OneLine line := by
  have whole : ∀ {content : List Char}, (∀ character ∈ content, isLineBreak character = false) →
      OneLine (String.ofList content.reverse) := by
    intro content clean character member
    rw [String.toList_ofList] at member
    exact clean character (List.mem_reverse.mp member)
  have none : ∀ character ∈ ([] : List Char), isLineBreak character = false :=
    fun character member => absurd member List.not_mem_nil
  fun_induction linesAfter current text with
  | case1 => exact fun line member => absurd member List.not_mem_nil
  | case2 => exact fun line member => List.mem_singleton.mp member ▸ whole begun
  | case3 current rest inductionHypothesis =>
    exact List.forall_mem_cons.mpr ⟨whole begun, inductionHypothesis none⟩
  | case4 current character rest _ ends inductionHypothesis =>
    exact List.forall_mem_cons.mpr ⟨whole begun, inductionHypothesis none⟩
  | case5 current character rest _ continues inductionHypothesis =>
    exact inductionHypothesis
      (List.forall_mem_cons.mpr ⟨Bool.eq_false_iff.mpr continues, begun⟩)

theorem mem_of_mem_trimmed {text : String} {character : Char}
    (member : character ∈ (trimmed text).toList) : character ∈ text.toList := by
  rw [trimmed, String.toList_ofList] at member
  exact List.dropWhile_subset _ (List.mem_reverse.mp (List.dropWhile_subset _
    (List.mem_reverse.mp member)))

theorem mem_of_splitEquals {text before behind : List Char}
    (splits : splitEquals text = some (before, behind)) :
    ∀ character ∈ behind, character ∈ text := by
  induction text generalizing before with
  | nil => cases splits
  | cons first rest inductionHypothesis =>
    rw [splitEquals] at splits
    split at splits
    · obtain ⟨-, rfl⟩ := Prod.mk.inj (Option.some.inj splits)
      exact fun character member => List.mem_cons_of_mem _ member
    · obtain ⟨parts, later, same⟩ := Option.map_eq_some_iff.mp splits
      obtain ⟨-, rfl⟩ := Prod.mk.inj same
      exact fun character member => List.mem_cons_of_mem _
        (inductionHypothesis later character member)

/-- A value that is read from one line is one line. -/
theorem readValue_clean {value : String} (clean : OneLine value) : OneLine (readValue value) := by
  unfold readValue
  cases split : shlexSplit value with
  | ok parts =>
    obtain ⟨words, read, done⟩ := bind_eq_ok.mp split
    obtain rfl := Except.ok.inj done
    have fine : ∀ part ∈ words, ∀ character ∈ part, isLineBreak character = false :=
      shlexWords_within (by decide) clean (fun mark member => absurd member List.not_mem_nil) read
    cases words with
    | nil => exact fun character member => absurd member (by simp)
    | cons first rest =>
      intro character member
      exact fine first List.mem_cons_self character (by simpa using member)
  | error raised =>
    intro character member
    rw [stripQuotes, String.toList_ofList] at member
    exact clean character (List.dropWhile_subset _ (List.mem_reverse.mp (List.dropWhile_subset _
      (List.mem_reverse.mp member))))

/-- Whatever a file holds, its variables have names that are read, and values of one line. -/
theorem envRead_sound {file : Option String} {entry : String × String}
    (member : entry ∈ envRead file) : isVariable entry.1.toList = true ∧ OneLine entry.2 := by
  cases file with
  | none => exact absurd member List.not_mem_nil
  | some text =>
    obtain ⟨line, listed, read⟩ := List.mem_filterMap.mp (mem_dictOf member)
    have clean : OneLine line := linesAfter_clean
      (fun character member => absurd member List.not_mem_nil) line listed
    unfold readLine at read
    split at read
    · cases read
    · obtain ⟨⟨before, behind⟩, splits, kept⟩ := Option.bind_eq_some_iff.mp read
      rw [Option.ite_none_right_eq_some, Option.some.injEq] at kept
      obtain ⟨named, rfl⟩ := kept
      have value : OneLine (trimmed (String.ofList behind)) := by
        intro character inside
        have within := mem_of_mem_trimmed inside
        rw [String.toList_ofList] at within
        exact clean character (mem_of_splitEquals splits character within)
      have whole := readValue_clean value
      dsimp only at named ⊢
      exact ⟨named, whole⟩

end Contents

section RoundTrips

/-- The value of a variable in a file. -/
def known (file : Option String) (key : String) : Option Str := (under (envRead file) key).map str

/-- What updates set: an empty value sets nothing. -/
def sets (updates : List (String × Str)) (key : String) : Option Str :=
  under (updates.filter fun update => update.2 ≠ []) key

/-- The updated file is read back as the old one with the updates in place, and nothing else
is different. -/
def RoundTrips (file : Option String) (updates : List (String × Str)) : Prop :=
  ∃ text, envWrite file updates = .ok text ∧
    ∀ key, known (some text) key = (sets updates key).or (known file key)

/-- Texts of one line that can be encoded. -/
def isPlain (value : Str) : Bool :=
  value.all fun point => !isSurrogate point && !isLineBreak (Char.ofNat point.val)

theorem toNat_ofNat {point : CodePoint} (whole : isSurrogate point = false) :
    (Char.ofNat point.val).toNat = point.val := by
  have valid : Nat.isValidChar point.val := by
    simp only [isSurrogate, decide_eq_false_iff_not] at whole
    have bound := point.isLt
    unfold Nat.isValidChar
    omega
  rw [Char.ofNat, dif_pos valid]
  rfl

theorem str_printed {value : Str} (plain : isPlain value = true) : str (printed value) = value := by
  rw [str, printed, String.toList_ofList, List.map_map]
  refine (List.map_congr_left fun point member => ?_).trans (List.map_id _)
  have own := List.all_eq_true.mp plain point member
  rw [Bool.and_eq_true, Bool.not_eq_true'] at own
  refine Fin.ext ?_
  rw [Function.comp_apply, toNat_ofNat own.1]
  exact Nat.mod_eq_of_lt point.isLt

theorem oneLine_printed {value : Str} (plain : isPlain value = true) : OneLine (printed value) := by
  intro character member
  rw [printed, String.toList_ofList] at member
  obtain ⟨point, listed, rfl⟩ := List.mem_map.mp member
  have own := List.all_eq_true.mp plain point listed
  rw [Bool.and_eq_true, Bool.not_eq_true', Bool.not_eq_true'] at own
  exact own.2

theorem isSurrogate_str {text : String} {point : CodePoint} (member : point ∈ str text) :
    isSurrogate point = false := by
  obtain ⟨character, _, rfl⟩ := List.mem_map.mp member
  have valid : character.toNat < 55296 ∨ 57343 < character.toNat ∧ character.toNat < 1114112 :=
    character.valid
  rw [isSurrogate, GuestFiles.val_ofNat, decide_eq_false_iff_not]
  omega

theorem isPlain_str {text : String} (clean : OneLine text) : isPlain (str text) = true := by
  refine List.all_eq_true.mpr fun point member => ?_
  have whole := isSurrogate_str member
  obtain ⟨character, listed, rfl⟩ := List.mem_map.mp member
  rw [whole, GuestFiles.val_ofNat, Char.ofNat_toNat, clean character listed]
  rfl

theorem under_map {α β : Type} (convert : α → β) (entries : List (String × α)) (key : String) :
    under (entries.map fun entry => (entry.1, convert entry.2)) key =
      (under entries key).map convert := by
  induction entries with
  | nil => rfl
  | cons entry rest inductionHypothesis =>
    rw [List.map_cons, under_cons, under_cons, inductionHypothesis]
    cases under rest key with
    | some value => rfl
    | none => by_cases same : entry.1 = key <;> simp [same]

theorem mem_updated {α : Type} {data updates : List (String × α)} {entry : String × α}
    (member : entry ∈ updated data updates) : entry ∈ data ∨ entry ∈ updates := by
  induction updates generalizing data with
  | nil => exact Or.inl member
  | cons pair rest inductionHypothesis =>
    rcases inductionHypothesis member with before | later
    · rcases mem_assign before with old | rfl
      · exact Or.inl old
      · exact Or.inr List.mem_cons_self
    · exact Or.inr (List.mem_cons_of_mem _ later)

theorem nodup_envRead (file : Option String) : ((envRead file).map (·.1)).Nodup := by
  cases file with
  | none => exact List.nodup_nil
  | some text => exact nodup_dictOf _

theorem isLineBreak_tag {character : Char} (kept : isTagCharacter character = true) :
    isLineBreak character = false := by
  have blank := isWhitespace_tag kept
  simp only [isWhitespace, isLineBreak, decide_eq_false_iff_not] at blank ⊢
  omega

theorem lineOf_clean {entry : String × String}
    (tagged : ∀ character ∈ entry.1.toList, isTagCharacter character = true)
    (clean : OneLine entry.2) : ∀ character ∈ lineOf entry, isLineBreak character = false := by
  intro character member
  rcases List.mem_append.mp member with name | rest
  · exact isLineBreak_tag (tagged character name)
  · rcases List.mem_cons.mp rest with rfl | quoted
    · decide
    · rcases mem_quote quoted with value | rfl | rfl
      · exact clean character value
      · decide
      · decide

/-- What is read of the lines that are written for a variable. -/
def readings (entry : String × String) : List (String × String) :=
  (linesAfter [] (lineOf entry)).filterMap readLine

theorem lineOf_closed (entry : String × String) :
    ∃ last, (lineOf entry).getLast? = some last ∧ isLineBreak last = false := by
  have filled : quote entry.2.toList ≠ [] ∧ ∃ last,
      (quote entry.2.toList).getLast? = some last ∧ isLineBreak last = false := by
    unfold quote
    split
    · rename_i safe
      refine ⟨safe.1, _, List.getLast?_eq_some_getLast safe.1, ?_⟩
      have blank := isWhitespace_safe (List.all_eq_true.mp safe.2 _ (List.getLast_mem safe.1))
      simp only [isWhitespace, isLineBreak, decide_eq_false_iff_not] at blank ⊢
      omega
    · rw [ShellLists.singleQuoted]
      exact ⟨by simp, '\'', List.getLast?_concat, by decide⟩
  obtain ⟨filled, last, ends, plain⟩ := filled
  refine ⟨last, ?_, plain⟩
  rw [lineOf, List.getLast?_append, List.getLast?_cons_of_ne_nil filled, ends, Option.some_or]

/-- A file that is written is read as the lines of its variables. -/
theorem under_envRead_written (data : List (String × String)) (key : String) :
    under (envRead (some (written data))) key =
      under ((data.insertionSort fun one other => one.1 ≤ other.1).flatMap readings) key := by
  rw [envRead, under_dictOf, splitlines, written, String.toList_ofList]
  congr 1
  generalize data.insertionSort (fun one other => one.1 ≤ other.1) = entries
  cases entries with
  | nil => decide
  | cons first rest =>
    rw [linesAfter_joined _ (by simp), List.flatMap_map, List.filterMap_flatMap]
    · rfl
    · intro text listed
      obtain ⟨entry, _, rfl⟩ := List.mem_map.mp listed
      exact lineOf_closed entry

/-- A variable whose name is read, with a value of one line, is read as it was written. -/
theorem readings_sound {entry : String × String} (named : isVariable entry.1.toList = true)
    (clean : OneLine entry.2) : readings entry = [entry] := by
  rw [readings, linesAfter_line (lineOf_clean (variable_characters named).2 clean) [] (by simp [lineOf]),
    List.reverse_nil, List.nil_append, List.filterMap_cons, readLine_lineOf named]
  rfl

/-- A variable is read as it was written when every variable is sound or has no line that
reads as this one. -/
theorem under_written {data : List (String × String)} {key : String}
    (distinct : (data.map (·.1)).Nodup)
    (sound : ∀ entry ∈ data, isVariable entry.1.toList = true ∧ OneLine entry.2 ∨
      entry.1 ≠ key ∧ ∀ reading ∈ readings entry, reading.1 ≠ key) :
    under (envRead (some (written data))) key = under data key := by
  have sorted := List.perm_insertionSort (fun one other : String × String => one.1 ≤ other.1) data
  rw [under_envRead_written]
  have listed : ∀ {value}, (key, value) ∈ (data.insertionSort fun one other =>
      one.1 ≤ other.1).flatMap readings ↔ (key, value) ∈ data := by
    intro value
    rw [List.mem_flatMap]
    constructor
    · rintro ⟨entry, member, reads⟩
      have own := sorted.mem_iff.mp member
      rcases sound entry own with ⟨named, clean⟩ | ⟨_, others⟩
      · rw [readings_sound named clean, List.mem_singleton] at reads
        exact reads ▸ own
      · exact absurd rfl (others _ reads)
    · intro own
      refine ⟨_, sorted.mem_iff.mpr own, ?_⟩
      rcases sound _ own with ⟨named, clean⟩ | ⟨other, _⟩
      · rw [readings_sound named clean]
        exact List.mem_singleton.mpr rfl
      · exact absurd rfl other
  refine Option.ext fun value => ⟨fun found => ?_, fun found => ?_⟩
  · exact (under_eq_some_iff distinct).mpr (listed.mp (mem_of_under found))
  · obtain ⟨other, read⟩ := under_isSome (listed.mpr (mem_of_under found))
    have same := (under_eq_some_iff distinct).mpr (listed.mp (mem_of_under read))
    rw [read, ← same, found]

theorem encodedPair_encodable {updates : List (String × Str)}
    (whole : ∀ update ∈ updates, update.2.any isSurrogate = false) :
    updates.mapM encodedPair = .ok (updates.map fun update => (update.1, printed update.2)) := by
  induction updates with
  | nil => rfl
  | cons update rest inductionHypothesis =>
    obtain ⟨own, others⟩ := List.forall_mem_cons.mp whole
    rw [List.mapM_cons, encodedPair, own, if_neg (by decide), ok_bind, inductionHypothesis others]
    rfl

theorem isPlain_encodable {value : Str} (plain : isPlain value = true) :
    value.any isSurrogate = false := by
  rw [List.any_eq_false]
  intro point member
  have kept := List.all_eq_true.mp plain point member
  simp only [Bool.and_eq_true, Bool.not_eq_true'] at kept
  simp [kept.1]

/-- The exact boundary: every nonempty update has a name that is read and a value of one line
that can be encoded. -/
theorem roundTrips_iff_plain {file : Option String} {updates : List (String × Str)}
    (distinct : (updates.map (·.1)).Nodup) :
    RoundTrips file updates ↔ ∀ update ∈ updates, update.2 ≠ [] →
      isVariable update.1.toList = true ∧ isPlain update.2 = true := by
  constructor
  · rintro ⟨text, -, reads⟩ update listed filled
    have kept : ((updates.filter fun update => update.2 ≠ []).map (·.1)).Nodup :=
      distinct.sublist (List.filter_sublist.map _)
    have set : sets updates update.1 = some update.2 :=
      (under_eq_some_iff kept).mpr (List.mem_filter.mpr ⟨listed, by simpa using filled⟩)
    have found := reads update.1
    rw [set, Option.some_or] at found
    obtain ⟨value, read, same⟩ := Option.map_eq_some_iff.mp found
    obtain ⟨named, clean⟩ := envRead_sound (mem_of_under read)
    exact ⟨named, same ▸ isPlain_str clean⟩
  · intro plain
    have each : ∀ update ∈ updates.filter fun update => update.2 ≠ [],
        isVariable update.1.toList = true ∧ isPlain update.2 = true := by
      intro update member
      obtain ⟨listed, filled⟩ := List.mem_filter.mp member
      exact plain update listed (by simpa using filled)
    have encodes := encodedPair_encodable fun update member =>
      isPlain_encodable (each update member).2
    have writes : envWrite file updates = .ok (written (updated (envRead file)
        ((updates.filter fun update => update.2 ≠ []).map fun update =>
          (update.1, printed update.2)))) := by
      rw [envWrite, encodes]
      rfl
    refine ⟨_, writes, fun key => ?_⟩
    have distinct := nodup_envRead file
    rw [known, under_written (nodup_updated distinct _), under_updated distinct, Option.map_or,
      under_map, Option.map_map]
    · congr 1
      rw [sets]
      cases found : under (updates.filter fun update => update.2 ≠ []) key with
      | none => rfl
      | some value => exact congrArg some (str_printed (each _ (mem_of_under found)).2)
    · intro entry member
      rcases mem_updated member with old | new
      · exact Or.inl (envRead_sound old)
      · obtain ⟨update, listed, rfl⟩ := List.mem_map.mp new
        exact Or.inl ⟨(each update listed).1, oneLine_printed (each update listed).2⟩

end RoundTrips

section Requests

variable {Φ : Type} [Floating Φ]

/-- What is set up, from the body of a request. -/
inductive Request (Φ : Type) where
  | platform (body : List (Str × Value Φ))
  | replica (body : List (Str × Value Φ))

/-- The updates of a request, if it is accepted. -/
def Request.env : Request Φ → Except Exn (List (String × Str))
  | .platform body => do return (← SetupRequests.platform body).env
  | .replica body => do return (← SetupRequests.replica body).env

/-- The secrets of a platform are of one line and can be encoded. -/
def PlatformCarried (body : List (Str × Value Φ)) : Prop :=
  if platformType (strippedAt body "type") = some .vmware then
    isPlain (textOr body "username" []) ∧ isPlain (textOr body "password" [])
  else isPlain (strippedAt body "ssh_key_path")

/-- The secrets of a storage target are of one line and can be encoded, and the name of a
bucket with an access key does not begin with a digit. -/
def ReplicaCarried (body : List (Str × Value Φ)) : Prop :=
  isPlain (textOr body "password" []) ∧ (backendOf (strippedAt body "backend") = some .s3 →
    isPlain (textOr body "access_key" []) ∧ isPlain (textOr body "secret_key" []) ∧
      (textOr body "access_key" [] = [] ∧ textOr body "secret_key" [] = [] ∨
        startsWithDigit (strippedAt body "name") = false))

def Request.Carried : Request Φ → Prop
  | .platform body => PlatformCarried body
  | .replica body => ReplicaCarried body

theorem isVariable_framed {before tag behind : String}
    (tagged : ∀ character ∈ tag.toList, isTagCharacter character = true)
    (leading : isVariable before.toList = true)
    (trailing : behind.toList.all isTagCharacter = true) :
    isVariable (before ++ tag ++ behind).toList = true := by
  obtain ⟨first, rest, shape⟩ := List.exists_cons_of_ne_nil (variable_characters leading).1
  rw [shape, isVariable, Bool.and_eq_true] at leading
  rw [String.toList_append, String.toList_append, shape, List.cons_append, List.cons_append,
    isVariable, leading.1, List.all_append, List.all_append, leading.2, trailing,
    List.all_eq_true.mpr tagged]
  rfl

/-- A tag that begins a variable's name must not begin with a digit. -/
theorem isVariable_leading {value : Str} {tag behind : String} (named : name value = .ok tag)
    (trailing : behind.toList.all isTagCharacter = true) :
    isVariable (tag ++ behind).toList = true ↔ startsWithDigit value = false := by
  obtain ⟨tagged, first, rest, shape, digit⟩ := name_shape named
  have own := tagged first (shape ▸ List.mem_cons_self)
  have others : rest.all isTagCharacter = true := List.all_eq_true.mpr fun character member =>
    tagged character (shape ▸ List.mem_cons_of_mem _ member)
  rw [← digit, String.toList_append, shape, List.cons_append, isVariable, List.all_append, others,
    trailing, Bool.and_true, Bool.and_true, Bool.or_eq_true, decide_eq_true_eq]
  simp only [isTagCharacter, Bool.or_eq_true, decide_eq_true_eq] at own
  constructor
  · rintro (upper | rfl)
    · simp only [Char.isUpper, Char.isDigit, decide_eq_true_eq, UInt32.le_iff_toNat_le,
        Bool.and_eq_false_iff, decide_eq_false_iff_not] at upper ⊢
      have bounds : 'A'.val.toNat = 65 ∧ '9'.val.toNat = 57 := by decide
      omega
    · decide
  · intro noDigit
    rw [noDigit] at own
    rcases own with (upper | digit) | mark
    · exact Or.inl upper
    · cases digit
    · exact Or.inr mark

variable {body : List (Str × Value Φ)} {prepared : Prepared Φ}

theorem platform_env (accepted : SetupRequests.platform body = .ok prepared) :
    ∃ tag kind, name (strippedAt body "name") = .ok tag ∧
      platformType (strippedAt body "type") = some kind ∧
        prepared.env = (platformPart body tag kind).env := by
  unfold SetupRequests.platform at accepted
  split at accepted
  · cases accepted
  · rename_i kind known
    obtain ⟨_, _, accepted⟩ := bind_eq_ok.mp accepted
    obtain ⟨tag, named, done⟩ := bind_eq_ok.mp accepted
    rw [← Except.ok.inj done]
    exact ⟨tag, kind, named, known, rfl⟩

theorem replica_env (accepted : SetupRequests.replica body = .ok prepared) :
    ∃ tag kind part, name (strippedAt body "name") = .ok tag ∧
      backendOf (strippedAt body "backend") = some kind ∧
        replicaPart body (strippedAt body "name") tag kind = .ok part ∧
          prepared.env = (repositoryVariable tag, textOr body "password" []) :: part.env := by
  unfold SetupRequests.replica at accepted
  split at accepted
  · cases accepted
  · rename_i kind known
    obtain ⟨_, _, accepted⟩ := bind_eq_ok.mp accepted
    obtain ⟨tag, named, accepted⟩ := bind_eq_ok.mp accepted
    obtain ⟨part, made, done⟩ := bind_eq_ok.mp accepted
    rw [← Except.ok.inj done]
    exact ⟨tag, kind, part, named, known, made, rfl⟩

theorem replicaPart_env {named : Str} {tag : String} {kind : Configuration.Backend}
    {part : Prepared Φ} (made : replicaPart body named tag kind = .ok part) :
    part.env = if kind = .s3 then [(accessKeyVariable tag, textOr body "access_key" []),
      (secretKeyVariable tag, textOr body "secret_key" [])] else [] := by
  cases kind with
  | s3 =>
    obtain ⟨_, _, made⟩ := bind_eq_ok.mp made
    obtain ⟨_, _, done⟩ := bind_eq_ok.mp made
    rw [← Except.ok.inj done]
    rfl
  | filesystem =>
    obtain ⟨_, _, done⟩ := bind_eq_ok.mp made
    rw [← Except.ok.inj done]
    rfl
  | rest =>
    obtain ⟨_, _, done⟩ := bind_eq_ok.mp made
    rw [← Except.ok.inj done]
    rfl

/-- Texts whose ends differ are different. -/
theorem ends_differ {before other first second : String} (count : Nat)
    (apart : first.toList.reverse.take count ≠ second.toList.reverse.take count)
    (long : count ≤ first.toList.length) (longer : count ≤ second.toList.length) :
    before ++ first ≠ other ++ second := by
  intro same
  have ends := congrArg (fun text : String => text.toList.reverse.take count) same
  simp only [String.toList_append, List.reverse_append] at ends
  rw [List.take_append_of_le_length (by rwa [List.length_reverse]),
    List.take_append_of_le_length (by rwa [List.length_reverse])] at ends
  exact apart ends

/-- The variables of one bucket are three. -/
theorem nodup_bucket (tag : String) :
    [repositoryVariable tag, accessKeyVariable tag, secretKeyVariable tag].Nodup := by
  have first : repositoryVariable tag ≠ accessKeyVariable tag :=
    ends_differ 2 (by decide) (by decide) (by decide)
  have second : repositoryVariable tag ≠ secretKeyVariable tag :=
    ends_differ 2 (by decide) (by decide) (by decide)
  have third : accessKeyVariable tag ≠ secretKeyVariable tag :=
    ends_differ 2 (by decide) (by decide) (by decide)
  simp [first, second, third]

theorem username_ne_password (tag : String) : usernameVariable tag ≠ passwordVariable tag :=
  ends_differ 2 (by decide) (by decide) (by decide)

/-- What an update asks for: a plain value, and when it is filled, a name that is read. -/
theorem carried_iff {key : String} {value : Str} {named : Prop}
    (reads : isVariable key.toList = true ↔ named) :
    (value ≠ [] → isVariable key.toList = true ∧ isPlain value = true) ↔
      isPlain value = true ∧ (value = [] ∨ named) := by
  rw [reads]
  by_cases empty : value = []
  · rw [empty]
    simp [isPlain]
  · simp [empty, and_comm]

theorem platform_roundTrips_iff {file : Option String}
    (accepted : SetupRequests.platform body = .ok prepared) :
    RoundTrips file prepared.env ↔ PlatformCarried body := by
  obtain ⟨tag, kind, named, known, same⟩ := platform_env accepted
  obtain ⟨tagged, -⟩ := name_shape named
  rw [same]
  unfold PlatformCarried
  rw [known]
  have ssh : ∀ (mode : String) (options : List (Str × Value Φ)),
      RoundTrips file (sshPart body tag mode options).env ↔
        isPlain (strippedAt body "ssh_key_path") = true := by
    intro mode options
    have key : isVariable (sshKeyVariable tag).toList = true :=
      isVariable_framed tagged (by decide) (by decide)
    rw [sshPart]
    dsimp only
    split
    · rename_i empty
      rw [roundTrips_iff_plain (by simp), empty]
      simp [isPlain]
    · rw [roundTrips_iff_plain (by simp), List.forall_mem_singleton,
        carried_iff (iff_true_intro key)]
      simp
  cases kind with
  | vmware =>
    have user : isVariable (usernameVariable tag).toList = true :=
      isVariable_framed tagged (by decide) (by decide)
    have password : isVariable (passwordVariable tag).toList = true :=
      isVariable_framed tagged (by decide) (by decide)
    have distinct : ((platformPart body tag .vmware).env.map (·.1)).Nodup := by
      simp [platformPart, vmwarePart, username_ne_password tag]
    rw [roundTrips_iff_plain distinct, if_pos rfl, platformPart, vmwarePart,
      List.forall_mem_cons, List.forall_mem_singleton, carried_iff (iff_true_intro user),
      carried_iff (iff_true_intro password)]
    simp
  | proxmox => exact (ssh _ _).trans (by rw [if_neg (by simp)])
  | xcpng => exact (ssh _ _).trans (by rw [if_neg (by simp)])

theorem replica_roundTrips_iff {file : Option String}
    (accepted : SetupRequests.replica body = .ok prepared) :
    RoundTrips file prepared.env ↔ ReplicaCarried body := by
  obtain ⟨tag, kind, part, named, known, made, same⟩ := replica_env accepted
  obtain ⟨tagged, -⟩ := name_shape named
  have password : isVariable (repositoryVariable tag).toList = true :=
    isVariable_framed tagged (by decide) (by decide)
  rw [same, replicaPart_env made]
  unfold ReplicaCarried
  rw [known, Option.some.injEq]
  by_cases bucket : kind = .s3
  · rw [if_pos bucket]
    refine (roundTrips_iff_plain ?distinct).trans ?_
    case distinct => exact nodup_bucket tag
    rw [List.forall_mem_cons, List.forall_mem_cons, List.forall_mem_singleton,
      carried_iff (iff_true_intro password)]
    have access : isVariable (accessKeyVariable tag).toList = true ↔
        startsWithDigit (strippedAt body "name") = false := isVariable_leading named (by decide)
    have secret : isVariable (secretKeyVariable tag).toList = true ↔
        startsWithDigit (strippedAt body "name") = false := isVariable_leading named (by decide)
    rw [carried_iff access, carried_iff secret]
    constructor
    · rintro ⟨⟨plain, -⟩, ⟨first, free⟩, second, named⟩
      exact ⟨plain, fun _ => ⟨first, second, and_or_right.mpr ⟨free, named⟩⟩⟩
    · rintro ⟨plain, others⟩
      obtain ⟨first, second, both⟩ := others bucket
      obtain ⟨free, named⟩ := and_or_right.mp both
      exact ⟨⟨plain, Or.inr trivial⟩, ⟨first, free⟩, second, named⟩
  · rw [if_neg bucket, roundTrips_iff_plain (by simp), List.forall_mem_singleton,
      carried_iff (iff_true_intro password)]
    simp [bucket]

/-- The file is read back as the old one with the updates in place exactly when the request's
secrets are of one line and can be encoded, and the name of a bucket with an access key does
not begin with a digit. -/
theorem request_roundTrips_iff {request : Request Φ} {env : List (String × Str)}
    (made : request.env = .ok env) (file : Option String) :
    RoundTrips file env ↔ request.Carried := by
  cases request with
  | platform body =>
    obtain ⟨prepared, accepted, done⟩ := bind_eq_ok.mp made
    rw [← Except.ok.inj done]
    exact platform_roundTrips_iff accepted
  | replica body =>
    obtain ⟨prepared, accepted, done⟩ := bind_eq_ok.mp made
    rw [← Except.ok.inj done]
    exact replica_roundTrips_iff accepted

/-- A hypervisor whose password holds quotes and an equals sign. -/
def quotedPassword : List (Str × Value Constant) :=
  [(str "name", .text (str "vc-1 (main)")), (str "type", .text (str "vmware")),
    (str "endpoint", .text (str "vc.example")), (str "username", .text (str "svc")),
    (str "password", .text (str "it's=\"9\" #"))]

theorem roundTrips_quotedPassword : ∃ env, (Request.platform quotedPassword).env = .ok env ∧
    RoundTrips (some "IMMUTAVAULT_OSPF_KEY=abc\n") env := by
  have made : (Request.platform quotedPassword).env = .ok _ := rfl
  have carried : PlatformCarried quotedPassword := by
    rw [PlatformCarried, if_pos (by decide)]
    exact ⟨by decide, by decide⟩
  exact ⟨_, made, (request_roundTrips_iff made _).mpr carried⟩

/-- A bucket whose name begins with a digit. -/
def numberedBucket : List (Str × Value Constant) :=
  [(str "name", .text (str "2nd-vault")), (str "backend", .text (str "s3")),
    (str "endpoint", .text (str "https://s3.example")), (str "bucket", .text (str "backups")),
    (str "access_key", .text (str "AK")), (str "secret_key", .text (str "SK")),
    (str "password", .text (str "pw"))]

/-- The access key of such a bucket is written and then passed over. -/
theorem numberedBucket_lost : ¬ ∀ (request : Request Constant) (file : Option String)
    (env : List (String × Str)), request.env = .ok env → RoundTrips file env := by
  intro claimed
  have made : replica numberedBucket = .ok _ := rfl
  have carried := (replica_roundTrips_iff made).mp (claimed (.replica numberedBucket) none _ rfl)
  exact absurd (carried.2 (by decide)).2.2 (by decide)

end Requests
end Immutavault.EnvironmentFiles
