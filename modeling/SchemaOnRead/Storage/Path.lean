import SchemaOnRead.Text.Lowercase

/-!
# Paths

Paths of objects in a store: segments with a slash before each. Any spelling of a path is brought
into this form by `Path.format`.
-/

namespace SchemaOnRead.Path

/-- The parts of a path between its slashes; one more than there are slashes. -/
def split : List Char → List (List Char)
  | [] => [[]]
  | c :: rest =>
    match split rest with
    | [] => [[c]]
    | part :: parts => if c = '/' then [] :: part :: parts else (c :: part) :: parts

/-- The segments of a path, that is its parts that are not empty. -/
def segments (cs : List Char) : List (List Char) := (split cs).filter (!·.isEmpty)

/-- A path made of segments. -/
def ofSegments : List (List Char) → List Char
  | [] => ['/']
  | [s] => '/' :: s
  | s :: rest => '/' :: s ++ ofSegments rest

/-- A path with single slashes, one of them at the start and none at the end. -/
def formatChars (cs : List Char) : List Char := ofSegments (segments cs)

/-- A path with single slashes, one of them at the start and none at the end, as a string. -/
def format (path : String) : String := String.ofList (formatChars path.toList)

/-- The path of a child of a directory. -/
def join (directory name : String) : String := format (directory ++ "/" ++ name)

/-- Whether a text may be the name of an entry of a directory: it is one segment, holds no null
character, and is not one of the two that lead elsewhere. -/
def isName (name : String) : Bool :=
  let cs := name.toList
  !cs.isEmpty && !cs.contains '/' && !cs.contains '\x00' && name != "." && name != ".."

/-- What stands after the last slash. -/
def lastPart (cs : List Char) : List Char := (split cs).getLastD []

/-- The text before the last slash, or all of it if there is none. -/
def beforeLastSlash (cs : List Char) : List Char :=
  let tail := cs.reverse.takeWhile (· ≠ '/')
  if tail.length = cs.length then cs else cs.take (cs.length - tail.length - 1)

/-- A text without the slashes at its end. -/
def dropEndSlashes (cs : List Char) : List Char := (cs.reverse.dropWhile (· == '/')).reverse

/-- The name of an object: the last segment of its path. -/
def name (path : String) : String := String.ofList (lastPart (dropEndSlashes path.toList))

/-- What stands after the last point of the last part; empty if there is no point. -/
def extensionChars (cs : List Char) : List Char :=
  let part := lastPart cs
  let tail := part.reverse.takeWhile (· ≠ '.')
  if tail.length = part.length then [] else tail.reverse

/-- The extension of a path without its point. -/
def extension (path : String) : String := String.ofList (extensionChars path.toList)

/-! ## Segments -/

theorem split_ne_nil (cs : List Char) : split cs ≠ [] := by
  cases cs with
  | nil => simp [split]
  | cons c rest =>
    rw [split]
    split
    · simp
    · split <;> simp

/-- A slash divides a path: the parts before it come first. -/
theorem split_append_slash (before after : List Char) :
    split (before ++ '/' :: after) = split before ++ split after := by
  induction before with
  | nil =>
    rw [List.nil_append, split]
    obtain ⟨part, parts, parted⟩ := List.exists_cons_of_ne_nil (split_ne_nil after)
    simp [parted, split]
  | cons c rest ih =>
    rw [List.cons_append, split, ih, split]
    obtain ⟨part, parts, parted⟩ := List.exists_cons_of_ne_nil (split_ne_nil rest)
    simp only [parted, List.cons_append]
    split <;> rfl

/-- A text without slashes has one part. -/
theorem split_of_no_slash {cs : List Char} (plain : '/' ∉ cs) : split cs = [cs] := by
  induction cs with
  | nil => rfl
  | cons c rest ih =>
    rw [List.mem_cons, not_or] at plain
    simp [split, ih plain.2, Ne.symm plain.1]

theorem no_slash_of_mem_split {cs part : List Char} (member : part ∈ split cs) : '/' ∉ part := by
  induction cs generalizing part with
  | nil => simp [split] at member; simp [member]
  | cons c rest ih =>
    rw [split] at member
    obtain ⟨first, later, parted⟩ := List.exists_cons_of_ne_nil (split_ne_nil rest)
    rw [parted] at ih
    simp only [parted] at member
    by_cases slash : c = '/'
    · rw [if_pos slash, List.mem_cons] at member
      rcases member with rfl | inside
      · simp
      · exact ih inside
    · rw [if_neg slash, List.mem_cons] at member
      rcases member with rfl | inside
      · rw [List.mem_cons, not_or]
        exact ⟨Ne.symm slash, ih (.head _)⟩
      · exact ih (.tail _ inside)

/-- The parts of a path hold characters of the path only. -/
theorem mem_of_mem_split {cs part : List Char} (member : part ∈ split cs) {c : Char}
    (inside : c ∈ part) : c ∈ cs := by
  induction cs generalizing part with
  | nil => simp [split] at member; simp [member] at inside
  | cons d rest ih =>
    rw [split] at member
    obtain ⟨first, later, parted⟩ := List.exists_cons_of_ne_nil (split_ne_nil rest)
    rw [parted] at ih
    simp only [parted] at member
    by_cases slash : d = '/'
    · rw [if_pos slash, List.mem_cons] at member
      rcases member with rfl | old
      · cases inside
      · exact .tail _ (ih old inside)
    · rw [if_neg slash, List.mem_cons] at member
      rcases member with rfl | old
      · rcases List.mem_cons.mp inside with rfl | further
        · exact .head _
        · exact .tail _ (ih (.head _) further)
      · exact .tail _ (ih (.tail _ old) inside)

/-- A segment: a part of a path that is not empty. -/
def IsSegment (s : List Char) : Prop := s ≠ [] ∧ '/' ∉ s

theorem isSegment_of_mem_segments {cs s : List Char} (member : s ∈ segments cs) : IsSegment s := by
  rw [segments, List.mem_filter] at member
  exact ⟨by simpa using member.2, no_slash_of_mem_split member.1⟩

theorem segments_append_slash (before after : List Char) :
    segments (before ++ '/' :: after) = segments before ++ segments after := by
  rw [segments, split_append_slash, List.filter_append, segments, segments]

theorem segments_of_isSegment {s : List Char} (one : IsSegment s) : segments s = [s] := by
  rw [segments, split_of_no_slash one.2]
  simp [one.1]

theorem segments_slash (cs : List Char) : segments ('/' :: cs) = segments cs :=
  segments_append_slash [] cs

/-- A path made of segments has these segments. -/
theorem segments_ofSegments {ss : List (List Char)} (all : ∀ s ∈ ss, IsSegment s) :
    segments (ofSegments ss) = ss := by
  induction ss with
  | nil => rfl
  | cons s rest ih =>
    have first := segments_of_isSegment (all s (.head _))
    have later := ih fun s' member => all s' (.tail _ member)
    cases rest with
    | nil => rw [ofSegments, segments_slash, first]
    | cons s' rest =>
      have slash : ∃ tail, ofSegments (s' :: rest) = '/' :: tail := by
        cases rest <;> exact ⟨_, rfl⟩
      obtain ⟨tail, starts⟩ := slash
      rw [starts, segments_slash] at later
      rw [ofSegments, starts, segments_append_slash, segments_slash, first, later]
      · rfl
      · simp

theorem segments_formatChars (cs : List Char) : segments (formatChars cs) = segments cs :=
  segments_ofSegments fun _ member => isSegment_of_mem_segments member

/-- The segments of the path of a child are those of the directory and then its name. -/
theorem segments_join (directory name : String) :
    segments (join directory name).toList = segments directory.toList ++ segments name.toList := by
  have slash : "/".toList = ['/'] := rfl
  rw [join, format, String.toList_ofList, segments_formatChars, String.toList_append,
    String.toList_append, slash, List.append_assoc, List.singleton_append, segments_append_slash]

end SchemaOnRead.Path
