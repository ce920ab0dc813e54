import TagFormula.Proofs.SettingsRoundTrip

/-!
# Settings that were read are written

A document holds signed integers of 64 bits, a count of seconds is an unsigned one. Every count that a
document gives as an integer can therefore be written again. A float and a text are converted, and what
they stand for need not fit.

* **`Toml.Value.InRange`**: an integer that a document can hold.
* **`Toml.ofWord?_inRange`**, **`Toml.readValue?_inRange`**: the integers that are read are of this
  kind, for each way in which one is written.
* **`Toml.Fields.InRange`**, **`Toml.foldlM_add?_inRange`**: they still are in the document that the
  lines build.
* **`Settings.read_writes_back`**: what is read can be written and is read back, but for a converted
  count that is too great.
-/

namespace TagFormula

open Toml

namespace Toml

/-! ## Integers in range -/

/-- If the value is an integer, a document can hold it. -/
def Value.InRange (value : Value) : Prop :=
  ∀ n, value = .integer n → leastInteger ≤ n ∧ n ≤ greatestInteger

/-- Only integers have a range. -/
theorem Value.inRange_of_ne {value : Value} (h : ∀ n, value ≠ .integer n) : value.InRange :=
  fun n hn => absurd hn (h n)

/-- Whatever a reader gives is in range. -/
def GivesInRange (read : Option Value) : Prop :=
  ∀ value, read = some value → value.InRange

namespace GivesInRange

theorem none : GivesInRange none := by
  intro value h
  cases h

theorem some {value : Value} (h : value.InRange) : GivesInRange (some value) := by
  rintro _ ⟨⟩
  exact h

theorem float (x : Float) : GivesInRange (.some (.float x)) :=
  .some (Value.inRange_of_ne (by simp))

/-- A reader whose last step is in range, whatever the steps before it give. -/
theorem bind {α : Type} {first : Option α} {rest : α → Option Value}
    (h : ∀ a, GivesInRange (rest a)) : GivesInRange (first >>= rest) := by
  intro value hvalue
  obtain ⟨a, _, ha⟩ := Option.bind_eq_some_iff.1 hvalue
  exact h a value ha

theorem ite {p : Prop} [Decidable p] {read read' : Option Value} (h : GivesInRange read)
    (h' : GivesInRange read') : GivesInRange (if p then read else read') := by
  split
  · exact h
  · exact h'

theorem or {read read' : Option Value} (h : GivesInRange read) (h' : GivesInRange read') :
    GivesInRange (read.or read') := by
  cases read with
  | none => exact h'
  | some value => exact h

end GivesInRange

/-! ## Words

All the readers of integers end in `integer?`, which tests the range. A word that is no integer is a
float, a time or a boolean. -/

/-- The only reader that makes an integer, and it checks the range. -/
theorem integer?_inRange (negative : Bool) (magnitude : Nat) :
    GivesInRange (integer? negative magnitude) := by
  intro value h
  obtain ⟨hrange, hvalue⟩ := Option.ite_none_right_eq_some.1 h
  cases hvalue
  rintro n ⟨⟩
  simpa using hrange

theorem readInteger?_inRange (cs : List Char) : GivesInRange (readInteger? cs) :=
  .bind fun _ => integer?_inRange _ _

theorem readBased?_inRange (cs : List Char) : GivesInRange (readBased? cs) := by
  unfold readBased?
  dsimp only
  split
  -- to the bases 16, 8 and 2
  iterate 3 exact .bind fun _ => .bind fun _ => integer?_inRange _ _
  exact .none

theorem readFloat?_inRange (cs : List Char) : GivesInRange (readFloat? cs) := by
  unfold readFloat?
  dsimp only
  refine .ite (.float _) (.ite (.float _) ?_)
  -- with and without an exponent
  split
  all_goals
    refine .bind fun power => .bind fun whole => ?_
    -- with and without a fraction
    split
    all_goals
      refine .bind fun fraction => ?_
      split
      · exact .bind fun _ => .ite (.float _) .none
      · exact .ite (.float _) .none

/-- A bare word, by all the readers that are tried for it. -/
theorem ofWord?_inRange (cs : List Char) : GivesInRange (Value.ofWord? cs) := by
  have htime : GivesInRange ((readTime? cs).map fun text => .time (String.ofList text)) := by
    intro value h
    obtain ⟨text, _, rfl⟩ := Option.map_eq_some_iff.1 h
    exact Value.inRange_of_ne (by simp)
  have hboolean (b : Bool) : GivesInRange (some (.boolean b)) :=
    .some (Value.inRange_of_ne (by simp))
  unfold Value.ofWord?
  exact .ite (hboolean _) (.ite (hboolean _) (.or (readInteger?_inRange cs)
    (.or (readBased?_inRange cs) (.or (readFloat?_inRange cs) htime))))

/-! ## Values and lines -/

section

variable {tokens : List Token} {value : Value}

/-- A word of a document is one token, or two if it is a date and a time. -/
theorem readWord?_inRange {after : Remaining tokens.length}
    (h : readWord? tokens = some (value, after)) : value.InRange := by
  unfold readWord? at h
  dsimp only at h
  -- with and without a time of day behind a date
  split at h
  all_goals
    obtain ⟨_, hmap⟩ := Option.dite_none_right_eq_some.1 h
    obtain ⟨_, hread, heq⟩ := Option.map_eq_some_iff.1 hmap
    cases heq
    exact ofWord?_inRange _ value hread

/-- Quotes, brackets and braces hold no integer, so only a word gives one. -/
theorem readValue?_inRange {after : Remaining tokens.length}
    (h : readValue? tokens = some (value, after)) : value.InRange := by
  rintro n rfl
  unfold readValue? at h
  split at h
  · cases h
  · split at h
    · cases h
    · cases h
  · split at h
    · cases h
    · split at h
      · cases h
      · cases h
  · exact readWord?_inRange h n rfl

/-- The value that a line gives is in range. -/
def Line.InRange : Line → Prop
  | .field _ _ value => value.InRange
  | .table _ _ | .element _ _ => True

/-- A line has at most one value. -/
theorem readLine?_inRange {line : Line} {rest : List Token}
    (h : readLine? tokens = some (line, rest)) : line.InRange := by
  unfold readLine? at h
  split at h
  · split at h
    · cases h
      trivial
    · cases h
  · split at h
    · cases h
      trivial
    · cases h
  · split at h
    · obtain ⟨_, hread, heq⟩ := Option.map_eq_some_iff.1 h
      cases heq
      exact readValue?_inRange hread
    · cases h

end

/-- All lines of a document, by the recursion of their reader. -/
theorem readLines?_inRange {tokens : List Token} {lines : List Line}
    (h : readLines? tokens = some lines) : ∀ line ∈ lines, line.InRange := by
  fun_induction readLines? tokens generalizing lines with
  | case1 =>
    cases h
    simp
  | case3 _ _ _ _ line _ hline =>
    cases h
    simpa using readLine?_inRange hline
  | case4 _ _ _ _ line _ hline _ _ _ ih =>
    obtain ⟨later, hlater, rfl⟩ := Option.map_eq_some_iff.1 h
    rw [List.forall_mem_cons]
    exact ⟨readLine?_inRange hline, ih hlater⟩
  | case2 | case5 | case6 => cases h

/-! ## The document that is built

A line changes the table at the end of its path. The tables on the way are put back changed, which adds
no value to them; at the end of the path the value of the line is added, or a table is begun. -/

/-- The values among the fields of a table are in range. -/
def Fields.InRange (fields : Fields) : Prop :=
  ∀ key value, (key, Node.leaf value) ∈ fields → value.InRange

namespace Fields

variable {fields fields' : Fields}

/-- A field that is put keeps the others. -/
theorem InRange.put (h : fields.InRange) (key : String) {node : Node}
    (hnode : ∀ value, node = .leaf value → value.InRange) : InRange (fields.put key node) := by
  intro key' value hmem
  unfold Fields.put at hmem
  split at hmem
  · obtain ⟨field, hfield, heq⟩ := List.mem_map.1 hmem
    split at heq
    · cases heq
      exact hnode value rfl
    · exact h key' value (heq ▸ hfield)
  · rcases List.mem_append.1 hmem with hmem | hmem
    · exact h key' value hmem
    · cases List.mem_singleton.1 hmem
      exact hnode value rfl

/-- A change further inside puts a field that is no value. -/
theorem exists_of_map_put {wrap : Fields → Node} (hwrap : ∀ inner value, wrap inner ≠ .leaf value)
    {key : String} {inner : Option Fields}
    (h : (inner.map wrap >>= fun node => some (fields.put key node)) = some fields') :
    ∃ node, (∀ value, node ≠ .leaf value) ∧ fields' = fields.put key node := by
  obtain ⟨node, hnode, heq⟩ := Option.bind_eq_some_iff.1 h
  obtain ⟨changed, _, rfl⟩ := Option.map_eq_some_iff.1 hnode
  cases heq
  exact ⟨wrap changed, hwrap changed, rfl⟩

/-- A path changes a table on its way, never a value. -/
theorem exists_of_update?_cons {dotted : Bool} {change : Origin → Fields → Option Fields}
    {origin : Origin} {key : String} {path : List String}
    (h : fields.update? dotted change origin (key :: path) = some fields') :
    ∃ node, (∀ value, node ≠ .leaf value) ∧ fields' = fields.put key node := by
  rw [Fields.update?] at h
  -- by what the key names so far: nothing, a value, a table, an array of tables
  split at h
  · exact exists_of_map_put (by simp) h
  · cases h
  · split at h
    · cases h
    · exact exists_of_map_put (by simp) h
  · exact exists_of_map_put (by simp) h

/-- The walk along a path. Induction on the path; the change is made at its end. -/
theorem InRange.update? {dotted : Bool} {change : Origin → Fields → Option Fields}
    {origin : Origin} {path : List String} (h : fields.InRange)
    (hchange : change origin fields = some fields' → fields'.InRange)
    (hupdate : fields.update? dotted change origin path = some fields') : fields'.InRange := by
  cases path with
  | nil =>
    rw [Fields.update?] at hupdate
    exact hchange hupdate
  | cons key path =>
    obtain ⟨node, hnode, rfl⟩ := exists_of_update?_cons hupdate
    exact h.put key fun value hleaf => absurd hleaf (hnode value)

/-- A line with a value, at the end of its path. -/
theorem InRange.addValue? {path : List String} {key : String} {value : Value} (h : fields.InRange)
    (hvalue : value.InRange) (hadd : fields.addValue? path key value = some fields') :
    fields'.InRange := by
  refine h.update? (fun hchange => ?_) hadd
  obtain ⟨_, heq⟩ := Option.ite_none_left_eq_some.1 hchange
  cases heq
  exact h.put key fun _ hleaf => by cases hleaf; exact hvalue

theorem InRange.addTable? {path : List String} {key : String} (h : fields.InRange)
    (hadd : fields.addTable? path key = some fields') : fields'.InRange := by
  refine h.update? (fun hchange => ?_) hadd
  split at hchange
  · cases hchange
    exact h.put key (by simp)
  · cases hchange
    exact h.put key (by simp)
  · cases hchange

theorem InRange.addElement? {path : List String} {key : String} (h : fields.InRange)
    (hadd : fields.addElement? path key = some fields') : fields'.InRange := by
  refine h.update? (fun hchange => ?_) hadd
  split at hchange
  · cases hchange
    exact h.put key (by simp)
  · cases hchange
    exact h.put key (by simp)
  · cases hchange

end Fields

/-- The step: a line keeps the fields in range. -/
theorem Draft.add?_inRange {draft draft' : Draft} {line : Line} (h : draft.fields.InRange)
    (hline : line.InRange) (hadd : draft.add? line = some draft') : draft'.fields.InRange := by
  cases line with
  | table path key =>
    obtain ⟨fields, hfields, rfl⟩ := Option.map_eq_some_iff.1 hadd
    exact h.addTable? hfields
  | element path key =>
    obtain ⟨fields, hfields, rfl⟩ := Option.map_eq_some_iff.1 hadd
    exact h.addElement? hfields
  | field path key value =>
    obtain ⟨fields, hfields, rfl⟩ := Option.map_eq_some_iff.1 hadd
    exact h.update? (fun hchange => h.addValue? hline hchange) hfields

/-- The run over all lines. -/
theorem foldlM_add?_inRange {lines : List Line} {draft draft' : Draft} (h : draft.fields.InRange)
    (hlines : ∀ line ∈ lines, line.InRange) (hadd : lines.foldlM Draft.add? draft = some draft') :
    draft'.fields.InRange := by
  induction lines generalizing draft with
  | nil =>
    cases hadd
    exact h
  | cons line rest ih =>
    rw [List.foldlM_cons] at hadd
    obtain ⟨next, hnext, hrest⟩ := Option.bind_eq_some_iff.1 hadd
    exact ih (Draft.add?_inRange h (hlines line List.mem_cons_self) hnext)
      (fun line hline => hlines line (List.mem_cons_of_mem _ hline)) hrest

/-- A field that is an integer is a value that some line gave. -/
theorem leaf_mem_of_integer_mem {fields : Fields} {key : String} {n : Int}
    (h : (key, Value.integer n) ∈ fieldsToValues fields) : (key, Node.leaf (.integer n)) ∈ fields := by
  induction fields with
  | nil => cases h
  | cons field rest ih =>
    obtain ⟨key', node⟩ := field
    rw [fieldsToValues, List.mem_cons] at h
    rcases h with h | h
    · cases node with
      | leaf value =>
        cases h
        exact List.mem_cons_self
      | table _ _ | tables _ _ => simp [Node.toValue] at h
    · exact List.mem_cons_of_mem _ (ih h)

/-- The integers among the fields of a document lie in its range. -/
theorem read?_inRange {text : String} {fields : List (String × Value)} (h : read? text = some fields)
    {key : String} {n : Int} (hn : (key, Value.integer n) ∈ fields) :
    leastInteger ≤ n ∧ n ≤ greatestInteger := by
  unfold read? at h
  obtain ⟨tokens, _, h⟩ := Option.bind_eq_some_iff.1 h
  obtain ⟨lines, hlines, h⟩ := Option.bind_eq_some_iff.1 h
  obtain ⟨draft, hdraft, h⟩ := Option.bind_eq_some_iff.1 h
  cases h
  have hstart : Fields.InRange (Draft.mk [] []).fields := by
    intro key value hmem
    cases hmem
  have hfields := foldlM_add?_inRange hstart (readLines?_inRange hlines) hdraft
  exact hfields key (.integer n) (leaf_mem_of_integer_mem hn) n rfl

end Toml

namespace Settings

/-! ## Counts of seconds -/

theorem field?_mem {fields : List (String × Value)} {key : String} {value : Value}
    (h : field? fields key = some value) : (key, value) ∈ fields := by
  obtain ⟨⟨key', value'⟩, hfield, rfl⟩ := Option.map_eq_some_iff.1 h
  have hkey : key' = key := by simpa using List.find?_some hfield
  exact hkey ▸ List.mem_of_find?_eq_some hfield

/-- Settings that are read come from the fields of a document. -/
theorem exists_of_read {text : String} {s : Settings} (h : read text = .ok s) :
    ∃ fields, Toml.read? text = some fields ∧ ofFields? fields = some s := by
  unfold read at h
  split at h
  · cases h
  · next fields hfields =>
    split at h
    · cases h
    · next hs =>
      cases h
      exact ⟨fields, hfields, hs⟩

/-- The seconds of settings that are read come from their own field. -/
theorem fieldOr_of_ofFields? {fields : List (String × Value)} {s : Settings}
    (h : ofFields? fields = some s) :
    fieldOr fields "message_ttl_secs" 4 toCount? = some s.messageSeconds := by
  obtain ⟨quiet, _, h⟩ := Option.bind_eq_some_iff.1 h
  obtain ⟨logFile, _, h⟩ := Option.bind_eq_some_iff.1 h
  obtain ⟨messageSeconds, hseconds, h⟩ := Option.bind_eq_some_iff.1 h
  obtain ⟨entries, _, h⟩ := Option.bind_eq_some_iff.1 h
  cases h
  exact hseconds

/-- A count that no document can hold as an integer was converted from a float or a text. -/
theorem float_or_string_of_lt {text : String} {fields : List (String × Value)}
    (hread : Toml.read? text = some fields) {count : Nat}
    (h : fieldOr fields "message_ttl_secs" 4 toCount? = some count)
    (hgreat : greatestInteger < (count : Int)) :
    ∃ value, field? fields "message_ttl_secs" = some value ∧ toCount? value = some count ∧
      ((∃ x, value = .float x) ∨ ∃ word, value = .string word) := by
  unfold fieldOr at h
  split at h
  · -- the default is small
    cases h
    exact absurd hgreat (by decide)
  · next value hvalue =>
    refine ⟨value, hvalue, h, ?_⟩
    cases value with
    | float x => exact Or.inl ⟨x, rfl⟩
    | string word => exact Or.inr ⟨word, rfl⟩
    | integer n =>
      -- an integer that is read is in range
      obtain ⟨_, hle⟩ := read?_inRange hread (field?_mem hvalue)
      obtain ⟨hnonneg, heq⟩ := Option.ite_none_right_eq_some.1 h
      cases heq
      rw [Int.toNat_of_nonneg hnonneg] at hgreat
      omega
    | boolean flag =>
      cases h
      cases flag <;> exact absurd hgreat (by decide)
    | time _ | array _ | table _ => cases h

/-! ## Reading and writing -/

/-- **Settings that were read are written, but for a converted count.** If their count of seconds fits,
settings that were read can be written and shown, and either text is read as the same settings again.
If it does not, they can be neither written nor shown; and then the text that they were read from gives
the count as a float or as a text of its own. -/
theorem read_writes_back {text : String} {s : Settings} (h : read text = .ok s) (path : String) :
    ((s.messageSeconds : Int) ≤ greatestInteger → ∃ written shown,
      s.write? = some written ∧ read written = .ok s ∧
      Command.showSettings s path =
        { result := .ok (), report := [⟨.info, s!"# {path}"⟩, ⟨.normal, shown⟩] } ∧
      read shown = .ok s) ∧
    (greatestInteger < (s.messageSeconds : Int) →
      s.write? = none ∧
      Command.showSettings s path =
        { result := .error (.settings .unwritable), report := [⟨.info, s!"# {path}"⟩] } ∧
      ∃ fields value, Toml.read? text = some fields ∧
        field? fields "message_ttl_secs" = some value ∧
        toCount? value = some s.messageSeconds ∧
        ((∃ x, value = .float x) ∨ ∃ word, value = .string word)) := by
  constructor
  · intro hcount
    cases hwrite : s.write? with
    | none =>
      have hgreat := write?_eq_none_iff.1 hwrite
      omega
    | some written =>
      obtain ⟨hread, hshown⟩ := read_of_write? hwrite
      exact ⟨written, _, rfl, hread, by simp only [Command.showSettings, hwrite], hshown⟩
  · intro hgreat
    -- the only number that the writer refuses
    have hwrite : s.write? = none := write?_eq_none_iff.2 hgreat
    obtain ⟨fields, hfields, hs⟩ := exists_of_read h
    obtain ⟨value, hvalue⟩ := float_or_string_of_lt hfields (fieldOr_of_ofFields? hs) hgreat
    exact ⟨hwrite, by simp only [Command.showSettings, hwrite], fields, value, hfields, hvalue⟩

theorem head?_toList_append {front back : String} {c : Char} (h : front.toList.head? = some c) :
    (front ++ back).toList.head? = some c := by
  rw [String.toList_append, List.head?_append, h]
  rfl

/-- The text of a document that gives the count of seconds as a text, and an empty catalog. -/
def textCount (word : String) : String :=
  "message_ttl_secs" ++ " = " ++ writeString word ++ "\n" ++ "catalog = []\n"

theorem head?_textCount (word : String) : (textCount word).toList.head? = some 'm' :=
  have hfirst : "message_ttl_secs".toList.head? = some 'm' := by decide
  head?_toList_append (head?_toList_append (head?_toList_append (head?_toList_append hfirst)))

/-- A number in quotation marks is read as the same number without them. -/
theorem read_textCount {word : String} {count : Nat} (h : toCount? (.string word) = some count) :
    read (textCount word) = .ok { messageSeconds := count, entries := [] } := by
  have hseconds := WrittenText.field "message_ttl_secs" (by decide) (by decide) (.quoted word)
  have hcatalog : WrittenText "catalog = []\n" [.field [] "catalog" (.array [])] := by
    simpa [catalogLines] using writtenText_catalog []
  have hlines : WrittenText (textCount word)
      [.field [] "message_ttl_secs" (.string word), .field [] "catalog" (.array [])] :=
    hseconds.append hcatalog
  obtain ⟨cs, htext, hwritten⟩ := hlines
  have hmark : (textCount word).toList.head? ≠ some '\ufeff' := by
    rw [head?_textCount]
    decide
  have hread : Toml.read? (textCount word) =
      some [("message_ttl_secs", .string word), ("catalog", .array [])] := by
    rw [read?_eq hmark (by rw [htext, hwritten.lines?_append_newline])]
    rfl
  simp [read, hread, ofFields?, fieldOr, field?, h, toEntries?]

/-- One second more than the greatest integer, as a text: it is read, but has no written form. -/
theorem read_count_above_integers :
    let text := "message_ttl_secs = \"9223372036854775808\"\ncatalog = []\n"
    let s : Settings := { messageSeconds := 0x8000000000000000, entries := [] }
    read text = .ok s ∧ s.write? = none ∧
      (Command.showSettings s "").result = .error (.settings .unwritable) := by
  intro text s
  have hcount : toCount? (.string "9223372036854775808") = some 0x8000000000000000 := by
    decide +kernel
  have htext : text = textCount "9223372036854775808" := by decide +kernel
  have hwrite : s.write? = none := write?_eq_none_iff.2 (by decide)
  refine ⟨?_, hwrite, by simp only [Command.showSettings, hwrite]⟩
  rw [htext]
  exact read_textCount hcount

/-- A text that stands for a count within the integers becomes an integer when it is written. -/
theorem read_writes_back_text_count :
    let text := "message_ttl_secs = \"ON\"\ncatalog = []\n"
    let s : Settings := { messageSeconds := 1, entries := [] }
    read text = .ok s ∧ (s.messageSeconds : Int) ≤ greatestInteger ∧
      ∃ written, s.write? = some written ∧ written ≠ text ∧ read written = .ok s := by
  intro text s
  have hcount : toCount? (.string "ON") = some 1 := by decide +kernel
  have htext : text = textCount "ON" := by decide +kernel
  have hread : read text = .ok s := by
    rw [htext]
    exact read_textCount hcount
  have hfits : (s.messageSeconds : Int) ≤ greatestInteger := by decide
  obtain ⟨written, _, hwrite, hback, _⟩ := (read_writes_back hread "").1 hfits
  refine ⟨hread, hfits, written, hwrite, ?_, hback⟩
  rintro rfl
  have hplain : s.write? = some "quiet = false\nmessage_ttl_secs = 1\ncatalog = []\n" := by
    decide +kernel
  rw [hplain] at hwrite
  exact absurd hwrite (by decide +kernel)

end Settings

end TagFormula
