import TagFormula.Command
import TagFormula.Proofs.WrittenLines

/-!
# Settings are read back

What is written for settings is a document of known lines. Its lines build a draft whose fields are
those of the settings, and the generous reader of fields gives back what has been written.

* **`Toml.WrittenText`**: a text of lines that ends with a line end.
* **`Settings.written`**: the lines that settings are written in.
* **`Settings.foldlM_lines`**: the fields that the lines build.
* **`Settings.read_write`**: the settings that are read are those that were written.
-/

namespace TagFormula

open Toml

namespace Toml

/-! ## Texts of lines -/

/-- A text of whole lines. -/
def WrittenText (text : String) (lines : List Line) : Prop :=
  ∃ cs, text.toList = cs ++ ['\n'] ∧ Written cs lines

namespace WrittenText

variable {text text' : String} {lines lines' : List Line}

/-- The shape in which every field is written. -/
theorem field (key : String) {value : Value} (hne : key.toList ≠ [])
    (hkey : key.toList.all isKeyChar = true) (h : WrittenValue text.toList value) :
    WrittenText (key ++ " = " ++ text ++ "\n") [.field [] key value] := by
  have hline := WrittenLine.field hne hkey h
  rw [String.ofList_toList] at hline
  exact ⟨_, by simp, .line hline⟩

/-- The header that is written before each entry of a list. -/
theorem element (key : String) (hne : key.toList ≠ []) (hkey : key.toList.all isKeyChar = true) :
    WrittenText ("[[" ++ key ++ "]]\n") [.element [] key] := by
  have hline := WrittenLine.element hne hkey
  rw [String.ofList_toList] at hline
  exact ⟨_, by simp, .line hline⟩

/-- An empty line is no line of the document. -/
theorem newline (h : WrittenText text lines) : WrittenText ("\n" ++ text) lines := by
  obtain ⟨cs, htext, hcs⟩ := h
  exact ⟨_, by simp [htext], hcs.newline⟩

/-- Parts that are written one behind the other are read as the lines of both. -/
theorem append (h : WrittenText text lines) (h' : WrittenText text' lines') :
    WrittenText (text ++ text') (lines ++ lines') := by
  obtain ⟨cs, htext, hcs⟩ := h
  obtain ⟨cs', htext', hcs'⟩ := h'
  exact ⟨_, by simp [htext, htext'], hcs.append hcs'⟩

end WrittenText

/-! ## Drafts -/

/-- The fields of a table that is being built have no such key. -/
def Fields.Lacks (fields : Fields) (key : String) : Prop :=
  ∀ field ∈ fields, field.1 ≠ key

namespace Fields

variable {fields : Fields} {key : String}

theorem Lacks.get? (h : fields.Lacks key) : fields.get? key = none := by
  rw [Fields.get?, List.find?_eq_none.2 (by simpa [Lacks] using h)]
  rfl

theorem Lacks.put (h : fields.Lacks key) (node : Node) :
    fields.put key node = fields ++ [(key, node)] := by
  have hany : fields.any (·.1 = key) = false := by
    rw [List.any_eq_false]
    intro field hfield
    simpa using h field hfield
  rw [Fields.put, hany]
  rfl

theorem Lacks.get?_append (h : fields.Lacks key) (node : Node) :
    Fields.get? (fields ++ [(key, node)]) key = some node := by
  rw [Fields.get?, List.find?_append, List.find?_eq_none.2 (by simpa [Lacks] using h)]
  simp

/-- A field that comes last is changed in its place. -/
theorem Lacks.put_append (h : fields.Lacks key) (node node' : Node) :
    Fields.put (fields ++ [(key, node)]) key node' = fields ++ [(key, node')] := by
  have hkept : fields.map (fun field => if field.1 = key then (key, node') else field) = fields := by
    refine (List.map_congr_left fun field hfield => ?_).trans (List.map_id fields)
    rw [if_neg (h field hfield)]
    rfl
  rw [Fields.put, if_pos (by simp), List.map_append, hkept]
  simp

end Fields

namespace Draft

variable {fields last : Fields} {key : String} {current : List String}

/-- One step: a field that is new. -/
theorem add?_field (h : fields.Lacks key) (value : Value) :
    Draft.add? ⟨fields, []⟩ (.field [] key value) =
      some ⟨fields ++ [(key, .leaf value)], []⟩ := by
  simp [Draft.add?, Fields.update?, Fields.addValue?, h.get?, h.put]

theorem add?_element (h : fields.Lacks key) (current : List String) :
    Draft.add? ⟨fields, current⟩ (.element [] key) =
      some ⟨fields ++ [(key, .tables [] [])], [key]⟩ := by
  simp [Draft.add?, Fields.update?, Fields.addElement?, h.get?, h.put]

/-- One step: a later header begins its next table. -/
theorem add?_next_element (h : fields.Lacks key) (earlier : List Fields) :
    Draft.add? ⟨fields ++ [(key, .tables earlier last)], current⟩ (.element [] key) =
      some ⟨fields ++ [(key, .tables (earlier ++ [last]) [])], [key]⟩ := by
  simp [Draft.add?, Fields.update?, Fields.addElement?, h.get?_append, h.put_append]

/-- One step: a field goes to the last table of the list. -/
theorem add?_element_field {inner : String} (h : fields.Lacks key) (hinner : last.Lacks inner)
    (earlier : List Fields) (value : Value) :
    Draft.add? ⟨fields ++ [(key, .tables earlier last)], [key]⟩ (.field [] inner value) =
      some ⟨fields ++ [(key, .tables earlier (last ++ [(inner, .leaf value)]))], [key]⟩ := by
  simp [Draft.add?, Fields.update?, Fields.addValue?, h.get?_append, h.put_append, hinner.get?,
    hinner.put]

theorem foldlM_cons {draft draft' : Draft} {line : Line} (h : draft.add? line = some draft')
    (rest : List Line) :
    (line :: rest).foldlM Draft.add? draft = rest.foldlM Draft.add? draft' := by
  rw [List.foldlM_cons, h]
  rfl

end Draft

theorem tablesToValues_append (tables tables' : List Fields) :
    tablesToValues (tables ++ tables') = tablesToValues tables ++ tablesToValues tables' := by
  induction tables with
  | nil => rfl
  | cons fields rest ih =>
    rw [List.cons_append, tablesToValues, tablesToValues, ih]
    rfl

/-- The fields of a document are those of the draft that its lines build. -/
theorem read?_eq {text : String} {lines : List Line}
    (hmark : text.toList.head? ≠ some '\ufeff') (hlines : lines? text.toList = some lines) :
    read? text = (lines.foldlM Draft.add? {}).map fun draft => fieldsToValues draft.fields := by
  obtain ⟨tokens, htokens, hlines⟩ := Option.bind_eq_some_iff.1 hlines
  unfold read?
  split
  · next rest heq =>
    rw [heq] at hmark
    exact absurd rfl hmark
  · simp only [htokens, hlines, Option.bind_eq_bind, Option.bind_some]
    cases lines.foldlM Draft.add? {} <;> rfl

end Toml

namespace Settings

/-! ## The text -/

/-- The lines of a catalog entry. -/
def entryLines (entry : String × String) : List Line :=
  [.element [] "catalog", .field [] "key" (.string entry.1),
    .field [] "value" (.string entry.2)]

/-- The lines that come before the catalog. -/
def plainLines (s : Settings) : List Line :=
  [.field [] "quiet" (.boolean s.quiet)] ++
    (s.logFile.map fun path => .field [] "log_file" (.string path)).toList ++
    [.field [] "message_ttl_secs" (.integer s.messageSeconds)]

/-- The lines of a catalog. -/
def catalogLines (entries : List (String × String)) : List Line :=
  if entries.isEmpty then [.field [] "catalog" (.array [])] else entries.flatMap entryLines

/-- The lines that settings are written in. -/
def lines (s : Settings) : List Line :=
  s.plainLines ++ catalogLines s.entries

theorem writtenText_entry (entry : String × String) :
    WrittenText (writeEntry entry) (entryLines entry) := by
  have htext : writeEntry entry = "\n" ++ (("[[" ++ "catalog" ++ "]]\n") ++
      ("key" ++ " = " ++ writeString entry.1 ++ "\n") ++
      ("value" ++ " = " ++ writeString entry.2 ++ "\n")) := by
    have hfirst : "\n[[catalog]]\nkey = " =
        "\n" ++ (("[[" ++ "catalog" ++ "]]\n") ++ ("key" ++ " = ")) := by decide
    have hsecond : "\nvalue = " = "\n" ++ ("value" ++ " = ") := by decide
    show "\n[[catalog]]\nkey = " ++ writeString entry.1 ++ "\nvalue = " ++ writeString entry.2 ++
      "\n" = _
    simp only [hfirst, hsecond, String.append_assoc]
  rw [htext]
  have hcatalog : WrittenText ("[[" ++ "catalog" ++ "]]\n") [.element [] "catalog"] :=
    .element _ (by decide) (by decide)
  have hkey := WrittenText.field "key" (by decide) (by decide) (.quoted entry.1)
  have hvalue := WrittenText.field "value" (by decide) (by decide) (.quoted entry.2)
  exact ((hcatalog.append hkey).append hvalue).newline

/-- The entries, one after the other. Induction on them. -/
theorem writtenText_entries {entries : List (String × String)} (hne : entries ≠ []) :
    WrittenText (String.join (entries.map writeEntry)) (entries.flatMap entryLines) := by
  induction entries with
  | nil => exact absurd rfl hne
  | cons entry rest ih =>
    rw [List.map_cons, String.join_cons, List.flatMap_cons]
    cases rest with
    | nil => simpa using writtenText_entry entry
    | cons next rest => exact (writtenText_entry entry).append (ih (by simp))

theorem writtenText_quiet (quiet : Bool) :
    WrittenText s!"quiet = {quiet}\n" [.field [] "quiet" (.boolean quiet)] := by
  have hvalue : WrittenValue (toString quiet).toList (.boolean quiet) := by
    cases quiet with
    | true => exact .word (by rw [Value.ofWord?, if_pos (by decide)]) (by decide) (by decide)
    | false =>
      refine .word ?_ (by decide) (by decide)
      rw [Value.ofWord?, if_neg (by decide), if_pos (by decide)]
  exact .field "quiet" (by decide) (by decide) hvalue

/-- The bound of an integer is the only thing that can stop the writing. -/
theorem writtenText_seconds {seconds : Nat} (h : (seconds : Int) ≤ greatestInteger) :
    WrittenText s!"message_ttl_secs = {seconds}\n"
      [.field [] "message_ttl_secs" (.integer seconds)] := by
  have hdigits : (Nat.toDigits 10 seconds).all isKeyChar = true := by
    rw [List.all_eq_true]
    intro c hc
    have hdigit : c.isDigit = true := Nat.isDigit_of_mem_toDigits (by decide) (by decide) hc
    simp [isKeyChar, Char.isAlphanum, hdigit]
  have hvalue : WrittenValue (toString seconds).toList (.integer seconds) := by
    rw [Nat.toString_eq_repr, Nat.toList_repr]
    exact .word (ofWord?_toDigits h) Nat.toDigits_ne_nil hdigits
  exact .field "message_ttl_secs" (by decide) (by decide) hvalue

/-- An empty catalog is written as an empty list, as there is no header for it. -/
theorem writtenText_catalog (entries : List (String × String)) :
    WrittenText
      (if entries.isEmpty then "catalog = []\n" else String.join (entries.map writeEntry))
      (catalogLines entries) := by
  unfold catalogLines
  split
  · have hbrackets : WrittenValue "[]".toList (.array []) := .brackets
    have htext : "catalog = []\n" = "catalog" ++ " = " ++ "[]" ++ "\n" := by decide
    rw [htext]
    exact .field "catalog" (by decide) (by decide) hbrackets
  · next hne => exact writtenText_entries (by simpa using hne)

/-- The text of settings, which starts with a letter. -/
theorem written {s : Settings} (h : (s.messageSeconds : Int) ≤ greatestInteger) :
    ∃ text, s.write? = some text ∧ text.toList.head? = some 'q' ∧ WrittenText text s.lines := by
  have hcount : ¬ greatestInteger < (s.messageSeconds : Int) := by omega
  have hquiet := writtenText_quiet s.quiet
  have hseconds := writtenText_seconds h
  have hcatalog := writtenText_catalog s.entries
  have hfirst : (toString "quiet = ").toList.head? = some 'q' := by decide
  unfold write? lines plainLines
  rw [if_neg hcount]
  cases s.logFile with
  | none =>
    refine ⟨_, rfl, ?_, (WrittenText.append ?_ hseconds).append hcatalog⟩
    · simp only [String.toList_append, List.head?_append, hfirst, Option.some_or]
    · rw [String.append_empty]
      exact hquiet
  | some path =>
    -- a path is quoted like any text
    have hlogFile := WrittenText.field "log_file" (by decide) (by decide) (.quoted path)
    refine ⟨_, rfl, ?_, ((hquiet.append hlogFile).append hseconds).append hcatalog⟩
    simp only [String.toList_append, List.head?_append, hfirst, Option.some_or]

/-! ## The fields -/

/-- The fields of a catalog entry. -/
def entryFields (entry : String × String) : Fields :=
  [("key", .leaf (.string entry.1)), ("value", .leaf (.string entry.2))]

/-- The value of a catalog entry. -/
def entryValue (entry : String × String) : Value :=
  .table (fieldsToValues (entryFields entry))

section

variable {fields : Fields} (hfields : fields.Lacks "catalog")

include hfields

/-- Behind the header of an entry come its two fields. -/
theorem foldlM_entryFields (earlier : List Fields) (entry : String × String) (rest : List Line) :
    (.field [] "key" (.string entry.1) :: .field [] "value" (.string entry.2) :: rest).foldlM
        Draft.add? ⟨fields ++ [("catalog", .tables earlier [])], ["catalog"]⟩ =
      rest.foldlM Draft.add?
        ⟨fields ++ [("catalog", .tables earlier (entryFields entry))], ["catalog"]⟩ := by
  have hkey : Fields.Lacks [] "key" := by simp [Fields.Lacks]
  have hvalue : Fields.Lacks [("key", .leaf (.string entry.1))] "value" := by simp [Fields.Lacks]
  exact (Draft.foldlM_cons (Draft.add?_element_field hfields hkey ..) _).trans
    (Draft.foldlM_cons (Draft.add?_element_field hfields hvalue ..) _)

/-- Each entry adds a table to those of the catalog. -/
theorem foldlM_entries (entries : List (String × String)) (earlier : List Fields) (last : Fields)
    (current : List String) : ∃ draft node,
      (entries.flatMap entryLines).foldlM Draft.add?
        ⟨fields ++ [("catalog", .tables earlier last)], current⟩ = some draft ∧
      draft.fields = fields ++ [("catalog", node)] ∧
      node.toValue = .array (tablesToValues earlier ++ .table (fieldsToValues last) ::
        entries.map entryValue) := by
  induction entries generalizing earlier last current with
  | nil => exact ⟨_, _, rfl, rfl, rfl⟩
  | cons entry rest ih =>
    obtain ⟨draft, node, hdraft, hnode, hvalue⟩ :=
      ih (earlier ++ [last]) (entryFields entry) ["catalog"]
    refine ⟨draft, node, ?_, hnode, ?_⟩
    · rw [List.flatMap_cons, ← hdraft]
      exact (Draft.foldlM_cons (Draft.add?_next_element hfields earlier) _).trans
        (foldlM_entryFields hfields ..)
    · rw [hvalue, tablesToValues_append]
      simp [tablesToValues, entryValue]

end

/-- The fields of settings that come before the catalog. -/
def plainFields (s : Settings) : Fields :=
  [("quiet", .leaf (.boolean s.quiet))] ++
    (s.logFile.map fun path => ("log_file", .leaf (.string path))).toList ++
    [("message_ttl_secs", .leaf (.integer s.messageSeconds))]

/-- The catalog is the last field, and no other one has its name. -/
theorem plainFields_lacks (s : Settings) : s.plainFields.Lacks "catalog" := by
  unfold plainFields
  cases s.logFile with
  | none => simp [Fields.Lacks]
  | some path => simp [Fields.Lacks]

theorem foldlM_plainLines (s : Settings) (rest : List Line) :
    (s.plainLines ++ rest).foldlM Draft.add? {} = rest.foldlM Draft.add? ⟨s.plainFields, []⟩ := by
  have hquiet : Fields.Lacks [] "quiet" := by simp [Fields.Lacks]
  unfold plainLines plainFields
  cases s.logFile with
  | none =>
    have hseconds : Fields.Lacks [("quiet", .leaf (.boolean s.quiet))] "message_ttl_secs" := by
      simp [Fields.Lacks]
    exact (Draft.foldlM_cons (Draft.add?_field hquiet _) _).trans
      (Draft.foldlM_cons (Draft.add?_field hseconds _) _)
  | some path =>
    have hlogFile : Fields.Lacks [("quiet", .leaf (.boolean s.quiet))] "log_file" := by
      simp [Fields.Lacks]
    have hseconds : Fields.Lacks [("quiet", .leaf (.boolean s.quiet)),
        ("log_file", .leaf (.string path))] "message_ttl_secs" := by
      simp [Fields.Lacks]
    exact (Draft.foldlM_cons (Draft.add?_field hquiet _) _).trans
      ((Draft.foldlM_cons (Draft.add?_field hlogFile _) _).trans
        (Draft.foldlM_cons (Draft.add?_field hseconds _) _))

/-- The run over the whole document. -/
theorem foldlM_lines (s : Settings) : ∃ draft node, s.lines.foldlM Draft.add? {} = some draft ∧
    draft.fields = s.plainFields ++ [("catalog", node)] ∧
    node.toValue = .array (s.entries.map entryValue) := by
  have hlacks := s.plainFields_lacks
  rw [lines, foldlM_plainLines]
  cases s.entries with
  | nil => exact ⟨_, _, Draft.foldlM_cons (Draft.add?_field hlacks (.array [])) [], rfl, rfl⟩
  | cons entry rest =>
    obtain ⟨draft, node, hdraft, hnode, hvalue⟩ :=
      foldlM_entries hlacks rest [] (entryFields entry) ["catalog"]
    refine ⟨draft, node, ?_, hnode, hvalue⟩
    rw [← hdraft]
    exact (Draft.foldlM_cons (Draft.add?_element hlacks []) _).trans
      (foldlM_entryFields hlacks [] entry _)

/-- An entry is read back from its table. -/
theorem toEntry?_entryValue (entry : String × String) : toEntry? (entryValue entry) = some entry :=
  rfl

theorem mapM_toEntry? (entries : List (String × String)) :
    (entries.map entryValue).mapM toEntry? = some entries := by
  induction entries with
  | nil => rfl
  | cons entry rest ih =>
    rw [List.map_cons, List.mapM_cons, toEntry?_entryValue, ih]
    rfl

/-- The fields that are read are those of the settings. -/
theorem ofFields?_eq {s : Settings} {node : Node}
    (h : node.toValue = .array (s.entries.map entryValue)) :
    ofFields? (fieldsToValues (s.plainFields ++ [("catalog", node)])) = some s := by
  obtain ⟨quiet, logFile, messageSeconds, entries⟩ := s
  have hentries : toEntries? node.toValue = some entries := by
    rw [h]
    exact mapM_toEntry? entries
  unfold plainFields
  cases logFile with
  | none =>
    simp [ofFields?, fieldOr, field?, fieldsToValues, Node.toValue, toFlag?, toCount?, hentries]
  | some path =>
    simp [ofFields?, fieldOr, field?, fieldsToValues, Node.toValue, toFlag?, toText?, toCount?,
      hentries]

/-- What is left is the order of the fields, and no field of another name. -/
theorem read_eq_ok {s : Settings} {text : String} (hfirst : text.toList.head? = some 'q')
    (hlines : lines? text.toList = some s.lines) : read text = .ok s := by
  obtain ⟨draft, node, hdraft, hfields, hnode⟩ := s.foldlM_lines
  have hread : Toml.read? text = some (fieldsToValues draft.fields) := by
    rw [read?_eq (by rw [hfirst]; decide) hlines, hdraft]
    rfl
  simp only [read, hread, hfields, ofFields?_eq hnode]

/-- Settings are not written only if their count of seconds is too great for the document. -/
theorem write?_eq_none_iff {s : Settings} :
    s.write? = none ↔ greatestInteger < (s.messageSeconds : Int) := by
  unfold write?
  split
  · next h => simp [h]
  · next h => simp [h]

/-- What is written is read back, with and without the line end. -/
theorem read_of_write? {s : Settings} {text : String} (h : s.write? = some text) :
    read text = .ok s ∧ read (String.ofList (Text.trimRight text.toList)) = .ok s := by
  have hcount : (s.messageSeconds : Int) ≤ greatestInteger := by
    rw [← Int.not_lt, ← write?_eq_none_iff, h]
    simp
  obtain ⟨text', hwrite, hfirst, cs, htext, hwritten⟩ := written hcount
  cases hwrite.symm.trans h
  constructor
  · exact read_eq_ok hfirst (by rw [htext, hwritten.lines?_append_newline])
  · rw [htext, hwritten.trimRight_append_newline]
    apply read_eq_ok
    · rw [String.toList_ofList]
      rw [htext] at hfirst
      cases cs with
      | nil => cases hfirst
      | cons c more => exact hfirst
    · rw [String.toList_ofList, hwritten.lines?_eq]

/-- **Loading undoes saving.** If the document can hold the count of seconds, the settings are
written, and what is written is read back as the same settings; so is the text in which they are
shown, without the last line end. Settings with a greater count are not written. -/
theorem read_write (s : Settings) (path : String) :
    ((s.messageSeconds : Int) ≤ greatestInteger → ∃ text shown,
      s.write? = some text ∧ read text = .ok s ∧
      Command.showSettings s path =
        { result := .ok (), report := [⟨.info, s!"# {path}"⟩, ⟨.normal, shown⟩] } ∧
      read shown = .ok s) ∧
    (greatestInteger < (s.messageSeconds : Int) → s.write? = none) := by
  refine ⟨fun h => ?_, write?_eq_none_iff.2⟩
  cases hwrite : s.write? with
  | none => exact absurd (write?_eq_none_iff.1 hwrite) (Int.not_lt.2 h)
  | some text =>
    obtain ⟨hread, hshown⟩ := read_of_write? hwrite
    refine ⟨text, String.ofList (Text.trimRight text.toList), rfl, hread, ?_, hshown⟩
    simp only [Command.showSettings, hwrite]

/-- Settings whose path has quotes of both kinds, a line end and a control character. -/
theorem read_write_path_with_quotes :
    let path := "\"\"\"'''\\\n\x01"
    let s : Settings := { logFile := some path, messageSeconds := 0, entries := [] }
    (s.messageSeconds : Int) ≤ greatestInteger ∧
      ∃ text, s.write? = some text ∧ (read text).toOption.bind (·.logFile) = some path := by
  intro path s
  have h : (s.messageSeconds : Int) ≤ greatestInteger := by decide
  obtain ⟨text, _, hwrite, hread, _⟩ := (read_write s "").1 h
  refine ⟨h, text, hwrite, ?_⟩
  rw [hread]
  rfl

end Settings

end TagFormula
