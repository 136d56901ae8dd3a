/-!
# Blank characters

The characters that separate words, trimming at either end of a text, and splitting a text into
its words. A text is handled as a list of characters; `trim` and `isBlankText` are the forms for
strings.
-/

namespace SchemaOnRead.Text

/-- A character that separates words: the Unicode white space characters together with the four
information separators U+001C to U+001F. -/
def isBlank (c : Char) : Bool :=
  let n := c.toNat
  (9 ≤ n && n ≤ 13) || (28 ≤ n && n ≤ 32) || n == 0x85 || n == 0xA0 || n == 0x1680 ||
    (0x2000 ≤ n && n ≤ 0x200A) || n == 0x2028 || n == 0x2029 || n == 0x202F || n == 0x205F ||
    n == 0x3000

/-- Drops the blanks a text begins with. -/
def stripLeft (cs : List Char) : List Char := cs.dropWhile isBlank

/-- Drops the blanks a text ends with. -/
def stripRight (cs : List Char) : List Char := (cs.reverse.dropWhile isBlank).reverse

/-- Drops the blanks at both ends of a text. -/
def strip (cs : List Char) : List Char := stripRight (stripLeft cs)

/-- The words of a text, that is its maximal runs of characters that are not blank; `word` holds
the current run, last character first. -/
def wordsFrom : List Char → List Char → List (List Char)
  | [], [] => []
  | word, [] => [word.reverse]
  | word, c :: rest =>
    if isBlank c then
      match word with
      | [] => wordsFrom [] rest
      | _ :: _ => word.reverse :: wordsFrom [] rest
    else wordsFrom (c :: word) rest

/-- The words of a text in order. -/
def words (cs : List Char) : List (List Char) := wordsFrom [] cs

/-- A string without the blanks at its ends. -/
def trim (s : String) : String := String.ofList (strip s.toList)

/-- Whether a string holds nothing but blanks; the empty string does. -/
def isBlankText (s : String) : Bool := s.toList.all isBlank

theorem stripLeft_of_all_blank {cs : List Char} (h : cs.all isBlank = true) : stripLeft cs = [] := by
  induction cs with
  | nil => rfl
  | cons c rest ih =>
    rw [List.all_cons, Bool.and_eq_true] at h
    rw [stripLeft, List.dropWhile_cons, if_pos h.1]
    exact ih h.2

/-- What is left of a text after its leading blanks is a suffix of it. -/
theorem stripLeft_suffix (cs : List Char) : stripLeft cs <:+ cs := List.dropWhile_suffix _

theorem length_stripLeft_le (cs : List Char) : (stripLeft cs).length ≤ cs.length :=
  (stripLeft_suffix cs).length_le

end SchemaOnRead.Text
