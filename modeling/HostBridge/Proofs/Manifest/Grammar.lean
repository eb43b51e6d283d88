import HostBridge.Proofs.Manifest.Reading

/-!
# The grammar of manifests

A text is a manifest iff each of its lines is blank, a comment or an assignment.  The first
other line is what is wrong with a text.  Every manifest is read back from its own text, in
which each variable has a line of its own.
-/

namespace HostBridge.Manifest

/-! ## Lines as they stand in a text -/

/-- A line without the carriage return at its end. -/
def withoutReturn (line : List Char) : List Char :=
  if line.getLast? = some '\r' then line.dropLast else line

/-- The lines of a text as they stand there.  What follows the last line feed is a line too,
even if nothing does. -/
def rawLines (text : String) : List (List Char) := (text.toList.splitOn '\n').map withoutReturn

theorem trimBlank_withoutReturn (line : List Char) :
    trimBlank (withoutReturn line) = trimBlank line := by
  unfold withoutReturn
  split
  · rename_i returned
    obtain ⟨before, rfl⟩ := List.getLast?_eq_some_iff.mp returned
    rw [List.dropLast_concat, trimBlank_concat (by decide)]
  · rfl

theorem lines_eq (text : String) : lines text = (rawLines text).map trimBlank := by
  rw [lines, rawLines, List.map_map]
  apply List.map_congr_left
  intro line _
  exact (trimBlank_withoutReturn line).symm

theorem mem_splitOn {char : Char} {text line : List Char} (member : line ∈ text.splitOn char) :
    char ∉ line := by
  induction text generalizing line with
  | nil =>
    rw [List.splitOn_nil, List.mem_singleton] at member
    rw [member]
    exact List.not_mem_nil
  | cons first rest ih =>
    rw [List.splitOn_cons_eq_if_modifyHead] at member
    split at member
    · rcases List.mem_cons.mp member with rfl | later
      · exact List.not_mem_nil
      · exact ih later
    · rename_i different
      obtain ⟨piece, pieces, split⟩ := List.exists_cons_of_ne_nil (List.splitOn_ne_nil char rest)
      rw [split, List.modifyHead_cons] at member
      rcases List.mem_cons.mp member with rfl | later
      · rw [List.mem_cons, not_or]
        refine ⟨?_, ih (split ▸ List.mem_cons_self)⟩
        rintro rfl
        simp at different
      · exact ih (split ▸ List.mem_cons_of_mem piece later)

/-- A line from which the blanks have been taken is one line and has none at its ends. -/
theorem trimmed_of_mem_lines {text : String} {line : List Char} (member : line ∈ lines text) :
    Trimmed line ∧ '\n' ∉ line := by
  obtain ⟨piece, among, rfl⟩ := List.mem_map.mp member
  constructor
  · exact trimmed_trimBlank piece
  · intro broken
    exact mem_splitOn among ((trimBlank_isInfix piece).subset broken)

/-! ## What a manifest holds -/

variable {text : String} {manifest : Manifest} {key value : String}

theorem parse_eq_ok_iff :
    parse text = .ok manifest ↔ readLines [] 1 (lines text) = .ok manifest.entries := by
  rw [parse]
  cases readLines [] 1 (lines text) with
  | error fault =>
    constructor
    · intro parsed
      cases parsed
    · intro read
      cases read
  | ok entries =>
    constructor
    · intro parsed
      cases parsed
      rfl
    · intro read
      cases read
      rfl

theorem parse_eq_error_iff {fault : MalformedLine} :
    parse text = .error fault ↔ readLines [] 1 (lines text) = .error fault := by
  rw [parse]
  cases readLines [] 1 (lines text) with
  | error fault => simp [Except.map]
  | ok entries => simp [Except.map]

theorem ordered_of_parse (parsed : parse text = .ok manifest) : Ordered manifest.entries :=
  ordered_readLines List.Pairwise.nil (parse_eq_ok_iff.mp parsed)

theorem get?_parse (parsed : parse text = .ok manifest) :
    manifest.get? key = some value ↔ LastDefines key value (lines text) := by
  rw [get?, lookup_readLines (parse_eq_ok_iff.mp parsed)]
  simp

theorem mem_entries_parse (parsed : parse text = .ok manifest) :
    (key, value) ∈ manifest.entries ↔ LastDefines key value (lines text) := by
  rw [(ordered_of_parse parsed).mem_iff]
  exact get?_parse parsed

/-- Whatever a manifest holds can be written on a line of its own. -/
theorem writable_of_parse (parsed : parse text = .ok manifest)
    (member : (key, value) ∈ manifest.entries) : Writable key value := by
  obtain ⟨line, among, defines⟩ := ((mem_entries_parse parsed).mp member).exists_mem
  obtain ⟨trimmed, oneLine⟩ := trimmed_of_mem_lines among
  exact defines.writable trimmed oneLine

/-! ## Reading a manifest back -/

/-- Variables that are written in order are read in order. -/
theorem readLines_written (before : List (String × String)) {entries : List (String × String)}
    (number : Nat) (ordered : Ordered (before ++ entries))
    (writable : ∀ entry ∈ entries, Writable entry.1 entry.2) {blanks : List (List Char)}
    (blank : ∀ line ∈ blanks, line = []) :
    readLines before number (entries.map written ++ blanks) = .ok (before ++ entries) := by
  induction entries generalizing before number with
  | nil =>
    rw [List.map_nil, List.nil_append, List.append_nil]
    induction blanks generalizing number with
    | nil => rfl
    | cons line blanks ih =>
      obtain ⟨rfl, rest⟩ := List.forall_mem_cons.mp blank
      rw [readLines_silent rfl]
      exact ih rest (number + 1)
  | cons entry entries ih =>
    obtain ⟨first, rest⟩ := List.forall_mem_cons.mp writable
    have defines : Defines (written entry) entry.1 entry.2 :=
      read_eq_assignment_iff.mp first.read_written
    have above : ∀ earlier ∈ before, earlier.1 < entry.1 := by
      intro earlier member
      exact (List.pairwise_append.mp ordered).2.2 earlier member entry List.mem_cons_self
    have next : Ordered ((before ++ [entry]) ++ entries) := by
      rwa [List.append_assoc, List.singleton_append]
    rw [List.map_cons, List.cons_append, readLines_assignment defines, insert_of_above above,
      ih (before ++ [entry]) (number + 1) next rest, List.append_assoc, List.singleton_append]

theorem toList_render (manifest : Manifest) : manifest.render.toList =
    manifest.entries.flatMap fun entry => written entry ++ ['\n'] := by
  rw [render, String.toList_join, List.flatMap_map]
  apply List.flatMap_congr
  intro entry _
  simp [written, String.toList_append]

/-- Texts that end with a line feed each stand on lines of their own. -/
theorem splitOn_terminated {items : List (List Char)} (oneLine : ∀ item ∈ items, '\n' ∉ item) :
    (items.flatMap (· ++ ['\n'])).splitOn '\n' = items ++ [[]] := by
  induction items with
  | nil => rfl
  | cons item items ih =>
    obtain ⟨first, rest⟩ := List.forall_mem_cons.mp oneLine
    rw [List.flatMap_cons, List.append_assoc, List.singleton_append,
      List.splitOn_append_cons_self_of_not_mem first, ih rest, List.cons_append]

/-- A text is read back as a manifest if its lines are those of the variables, in order. -/
theorem parse_of_written (ordered : Ordered manifest.entries)
    (writable : ∀ entry ∈ manifest.entries, Writable entry.1 entry.2)
    (blanks : List (List Char)) (blank : ∀ line ∈ blanks, line = [])
    (split : text.toList.splitOn '\n' = manifest.entries.map written ++ blanks) :
    parse text = .ok manifest := by
  have clean : (manifest.entries.map written ++ blanks).map trimBlank =
      manifest.entries.map written ++ blanks := by
    refine (List.map_congr_left fun line member => ?_).trans (List.map_id _)
    rcases List.mem_append.mp member with among | empty
    · obtain ⟨entry, held, rfl⟩ := List.mem_map.mp among
      exact (writable entry held).trimmed_written.trimBlank_eq
    · rw [blank line empty]
      rfl
  rw [parse_eq_ok_iff, lines, split, clean]
  exact readLines_written [] 1 ordered writable blank

/-- The text of a manifest with a line feed between variables, and none after the last one. -/
def renderSeparated (manifest : Manifest) : String :=
  "\n".intercalate (manifest.entries.map fun (key, value) => key ++ "=" ++ value)

theorem parse_render (parsed : parse text = .ok manifest) :
    parse manifest.render = .ok manifest := by
  have writable : ∀ entry ∈ manifest.entries, Writable entry.1 entry.2 :=
    fun entry member => writable_of_parse parsed member
  apply parse_of_written (ordered_of_parse parsed) writable [[]]
  · intro line member
    exact List.mem_singleton.mp member
  · rw [toList_render, ← splitOn_terminated, List.flatMap_map]
    intro line member
    obtain ⟨entry, among, rfl⟩ := List.mem_map.mp member
    exact (writable entry among).oneLine_written

theorem parse_renderSeparated (parsed : parse text = .ok manifest) :
    parse manifest.renderSeparated = .ok manifest := by
  have writable : ∀ entry ∈ manifest.entries, Writable entry.1 entry.2 :=
    fun entry member => writable_of_parse parsed member
  have texts : manifest.renderSeparated.toList =
      ['\n'].intercalate (manifest.entries.map written) := by
    rw [renderSeparated, String.toList_intercalate, List.map_map]
    congr 1
    apply List.map_congr_left
    intro entry _
    simp [written, String.toList_append]
  by_cases none : manifest.entries = []
  · -- Without variables the text is one empty line.
    apply parse_of_written (ordered_of_parse parsed) writable [[]]
    · intro line member
      exact List.mem_singleton.mp member
    · rw [texts, none]
      rfl
  · apply parse_of_written (ordered_of_parse parsed) writable []
    · intro line member
      cases member
    · rw [texts, List.append_nil]
      apply List.splitOn_intercalate
      · intro line member
        obtain ⟨entry, among, rfl⟩ := List.mem_map.mp member
        exact (writable entry among).oneLine_written
      · simpa using none

/-! ## The grammar -/

/--
A text is a manifest iff each of its lines, blanks at the ends left out, is empty, begins with a
number sign, or has something other than blanks in front of its first equals sign.  The manifest
then holds the names that lines define, each once and in ascending order, with the values that
the last lines defining them give to them, and it is read back from its own text.  A text that
is none is refused with the number and the contents of the first line that is nothing of this.
-/
theorem parse_grammar (text : String) :
    ((∃ manifest, parse text = .ok manifest) ↔
      ∀ line ∈ rawLines text, Legible (trimBlank line)) ∧
    (∀ manifest, parse text = .ok manifest →
      Ordered manifest.entries ∧
      (∀ key value, manifest.get? key = some value ↔
        LastDefines key value ((rawLines text).map trimBlank)) ∧
      (∀ key value, (key, value) ∈ manifest.entries ↔ manifest.get? key = some value) ∧
      parse manifest.render = .ok manifest ∧ parse manifest.renderSeparated = .ok manifest) ∧
    (∀ fault, parse text = .error fault ↔ ∃ before line after,
      rawLines text = before ++ line :: after ∧
      (∀ earlier ∈ before, Legible (trimBlank earlier)) ∧ ¬Legible (trimBlank line) ∧
      fault = ⟨before.length + 1, String.ofList (trimBlank line)⟩) := by
  refine ⟨?_, fun manifest parsed => ⟨ordered_of_parse parsed, fun key value => ?_,
    fun key value => ?_, parse_render parsed, parse_renderSeparated parsed⟩, fun fault => ?_⟩
  · rw [← List.forall_mem_map, ← lines_eq, ← exists_readLines_eq_ok_iff [] 1]
    constructor
    · rintro ⟨manifest, parsed⟩
      exact ⟨manifest.entries, parse_eq_ok_iff.mp parsed⟩
    · rintro ⟨entries, read⟩
      exact ⟨⟨entries⟩, parse_eq_ok_iff.mpr read⟩
  · rw [get?_parse parsed, lines_eq]
  · rw [mem_entries_parse parsed, get?_parse parsed]
  · rw [parse_eq_error_iff, readLines_eq_error_iff, lines_eq]
    constructor
    · rintro ⟨before, line, after, split, earlier, illegible, rfl⟩
      obtain ⟨before, rest, raw, rfl, remaining⟩ := List.map_eq_append_iff.mp split
      obtain ⟨line, after, rfl, rfl, -⟩ := List.map_eq_cons_iff.mp remaining
      refine ⟨before, line, after, raw, List.forall_mem_map.mp earlier, illegible, ?_⟩
      rw [List.length_map, Nat.add_comm]
    · rintro ⟨before, line, after, split, earlier, illegible, rfl⟩
      refine ⟨before.map trimBlank, trimBlank line, after.map trimBlank, ?_,
        List.forall_mem_map.mpr earlier, illegible, ?_⟩
      · rw [split, List.map_append, List.map_cons]
      · rw [List.length_map, Nat.add_comm]

/-- Of two lines for one name the second counts; values hold equals signs, lines end in both ways. -/
theorem parse_grammar_twice : ∃ manifest,
    parse "A = 1\r\n#A=2\n\n B==c= \nA=3" = .ok manifest ∧ manifest.get? "A" = some "3" ∧
      parse manifest.render = .ok manifest := by
  have parsed : parse "A = 1\r\n#A=2\n\n B==c= \nA=3" = .ok ⟨[("A", "3"), ("B", "=c=")]⟩ := by
    decide
  obtain ⟨-, held, -⟩ := parse_grammar "A = 1\r\n#A=2\n\n B==c= \nA=3"
  exact ⟨_, parsed, by decide, (held _ parsed).2.2.2.1⟩

end HostBridge.Manifest
