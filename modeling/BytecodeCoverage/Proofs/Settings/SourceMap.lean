-- SUMMARY: A source map rewrites a file name by the longest lead that is written down for it.
import BytecodeCoverage.Proofs.Text.Joining
import BytecodeCoverage.Settings.SourceMap
import Mathlib.Data.List.Induction
import Mathlib.Data.List.Perm.Basic
import Mathlib.Data.List.TakeWhile

/-!
# Source maps

The text of a map's leads is cut at its colons. The parts that write a lead down are its entries,
and of two entries for one traced side the last counts. A file name is rewritten by the longest
traced side that it begins with. Two leads of one name that are equally long are the same, so what
the name becomes hangs on the entries alone. Only entries for one traced side have to be in order.
-/

namespace BytecodeCoverage

/-! ## Fields -/

/-- In a list of pairs that some items stand for, a key is looked up among the items. -/
theorem lookup_map {α β : Type} (key : α → String) (value : α → β) (items : List α) (k : String) :
    (items.map fun item => (key item, value item)).lookup k =
      (items.find? (key · = k)).map value := by
  induction items with
  | nil => rfl
  | cons item rest ih =>
    rw [List.map_cons, List.lookup_cons, List.find?_cons]
    by_cases h : key item = k
    · simp [h]
    · simp [h, beq_eq_false_iff_ne.2 (Ne.symm h), ih]

namespace Json

variable {α : Type} {fields : List (String × α)}

theorem uniteFields_concat (fields : List (String × α)) (key : String) (value : α) :
    uniteFields (fields ++ [(key, value)]) = putField key value (uniteFields fields) := by
  rw [uniteFields, List.foldl_concat]
  rfl

/-- Of two fields with one key the last counts. -/
theorem lookup_uniteFields (fields : List (String × α)) (key : String) :
    (uniteFields fields).lookup key = fields.reverse.lookup key := by
  induction fields using List.reverseRecOn with
  | nil => rfl
  | append_singleton fields field ih =>
    obtain ⟨k, value⟩ := field
    rw [uniteFields_concat, lookup_putField, ih, List.reverse_concat, List.lookup_cons]
    by_cases h : key = k
    · simp [h]
    · simp [h, beq_eq_false_iff_ne.2 h]

theorem keys_putField (key : String) (value : α) (fields : List (String × α)) :
    (putField key value fields).map (·.1) =
      if key ∈ fields.map (·.1) then fields.map (·.1) else fields.map (·.1) ++ [key] := by
  induction fields with
  | nil => rfl
  | cons field rest ih =>
    obtain ⟨k, v⟩ := field
    rw [putField]
    by_cases h : k = key
    · simp [h]
    · rw [if_neg h, List.map_cons, ih]
      by_cases hrest : key ∈ rest.map (·.1)
      · simp [hrest]
      · simp [hrest, Ne.symm h]

theorem nodup_keys_uniteFields (fields : List (String × α)) :
    ((uniteFields fields).map (·.1)).Nodup := by
  induction fields using List.reverseRecOn with
  | nil => exact List.nodup_nil
  | append_singleton fields field ih =>
    rw [uniteFields_concat, keys_putField]
    split
    · exact ih
    · rename_i hkey
      refine List.nodup_append.2 ⟨ih, List.pairwise_singleton _ _, fun k hk key' hkey' => ?_⟩
      rw [List.mem_singleton.1 hkey']
      exact ne_of_mem_of_not_mem hk hkey

theorem mem_iff_lookup (hkeys : (fields.map (·.1)).Nodup) {key : String} {value : α} :
    (key, value) ∈ fields ↔ fields.lookup key = some value := by
  constructor
  · intro h
    obtain ⟨earlier, later, rfl⟩ := List.append_of_mem h
    rw [List.map_append, List.map_cons, List.nodup_append] at hkeys
    refine List.lookup_eq_some_iff.2 ⟨earlier, later, rfl, fun field hfield => ?_⟩
    exact bne_iff_ne.2 (Ne.symm (hkeys.2.2 _ (List.mem_map_of_mem hfield) _ (.head _)))
  · intro h
    obtain ⟨earlier, later, rfl, -⟩ := List.lookup_eq_some_iff.1 h
    exact List.mem_append_right _ (.head _)

theorem mem_uniteFields {key : String} {value : α} :
    (key, value) ∈ uniteFields fields ↔ fields.reverse.lookup key = some value := by
  rw [mem_iff_lookup (nodup_keys_uniteFields fields), lookup_uniteFields]

theorem putField_map {β : Type} (f : α → β) (key : String) (value : α)
    (fields : List (String × α)) :
    putField key (f value) (fields.map fun field => (field.1, f field.2)) =
      (putField key value fields).map fun field => (field.1, f field.2) := by
  induction fields with
  | nil => rfl
  | cons field rest ih =>
    obtain ⟨k, v⟩ := field
    by_cases h : k = key
    · simp [putField, h]
    · simp [putField, h, ih]

theorem uniteFields_map {β : Type} (f : α → β) (fields : List (String × α)) :
    uniteFields (fields.map fun field => (field.1, f field.2)) =
      (uniteFields fields).map fun field => (field.1, f field.2) := by
  induction fields using List.reverseRecOn with
  | nil => rfl
  | append_singleton fields field ih =>
    obtain ⟨key, value⟩ := field
    rw [List.map_append, List.map_singleton, uniteFields_concat, uniteFields_concat, ih,
      putField_map]

end Json

namespace SourceMap

-- ---------------------------------------------------------------------------
-- Entries
-- ---------------------------------------------------------------------------

/-- The parts of a text between colons that write a lead down: those that have an equals sign, and
do not begin with one. -/
def entries (text : String) : List (List Char) :=
  (text.toList.splitOn ':').filter fun part => '=' ∈ part ∧ part.head? ≠ some '='

/-- What stands before the first equals sign of an entry. -/
def tracedSide (entry : List Char) : List Char := entry.takeWhile (· ≠ '=')

/-- What stands behind it. -/
def sourceSide (entry : List Char) : List Char := (entry.dropWhile (· ≠ '=')).tail

/-- What some entries put in the place of a traced side: what stands behind the equals sign in the
last entry for it. -/
def Replaces (entries : List (List Char)) (traced source : List Char) : Prop :=
  '=' ∉ traced ∧ ∃ earlier later, entries = earlier ++ (traced ++ '=' :: source) :: later ∧
    ∀ entry ∈ later, tracedSide entry ≠ traced

/-- What a file name becomes by some entries. Without a source the current directory is meant. -/
inductive Rewrites (entries : List (List Char)) (file : List Char) : List Char → Prop where
  | replaced {traced source rest : List Char} (h : Replaces entries traced source)
      (hfile : file = traced ++ rest)
      (hlongest : ∀ entry ∈ entries, tracedSide entry <+: file →
        (tracedSide entry).length ≤ traced.length) :
      Rewrites entries file ((if source = [] then ['.'] else source) ++ rest)
  | kept (h : ∀ entry ∈ entries, ¬ tracedSide entry <+: file) : Rewrites entries file file

variable {es es' : List (List Char)} {entry file traced source : List Char}

theorem tracedSide_append (h : '=' ∉ traced) : tracedSide (traced ++ '=' :: source) = traced := by
  rw [tracedSide, List.takeWhile_append_of_pos, List.takeWhile_cons_of_neg (by simp),
    List.append_nil]
  intro c hc
  exact decide_eq_true (ne_of_mem_of_not_mem hc h)

theorem not_mem_tracedSide (entry : List Char) : '=' ∉ tracedSide entry := by
  intro h
  simpa using List.mem_takeWhile_imp h

/-- An entry is cut at its first equals sign. -/
theorem eq_tracedSide_append (h : '=' ∈ entry) :
    entry = tracedSide entry ++ '=' :: sourceSide entry := by
  have hrest : entry.dropWhile (· ≠ '=') ≠ [] := by
    intro hnone
    simpa using List.dropWhile_eq_nil_iff.1 hnone _ h
  obtain ⟨c, rest, hcons⟩ := List.exists_cons_of_ne_nil hrest
  have hc : c = '=' := by
    have hhead := List.head?_dropWhile_not (· ≠ '=') entry
    rw [hcons] at hhead
    simpa using hhead
  conv_lhs => rw [← List.takeWhile_append_dropWhile (p := (· ≠ '=')) (l := entry), hcons, hc]
  rw [sourceSide, hcons]
  rfl

theorem sourceSide_append (h : '=' ∉ traced) : sourceSide (traced ++ '=' :: source) = source := by
  have hmem : '=' ∈ traced ++ '=' :: source := by simp
  have hcut := eq_tracedSide_append hmem
  rw [tracedSide_append h, List.append_cancel_left_eq, List.cons.injEq] at hcut
  exact hcut.2.symm

theorem mem_of_mem_entries {text : String} (h : entry ∈ entries text) : '=' ∈ entry :=
  (of_decide_eq_true (List.mem_filter.1 h).2).1

theorem replaces_iff_find? :
    Replaces es traced source ↔ '=' ∉ traced ∧
      es.reverse.find? (tracedSide · = traced) = some (traced ++ '=' :: source) := by
  refine and_congr_right fun htraced => ?_
  rw [List.find?_eq_some_iff_append, decide_eq_true (tracedSide_append htraced)]
  constructor
  · rintro ⟨earlier, later, rfl, hlater⟩
    refine ⟨rfl, later.reverse, earlier.reverse, by simp, fun other hother => ?_⟩
    simpa using hlater other (List.mem_reverse.1 hother)
  · rintro ⟨-, later, earlier, hreverse, hlater⟩
    refine ⟨earlier.reverse, later.reverse, ?_, fun other hother => ?_⟩
    · rw [← List.reverse_inj, hreverse]
      simp
    · simpa using hlater other (List.mem_reverse.1 hother)

/-- The last entry for a traced side says what is put in its place. -/
theorem replaces_of_find? {text : String} {last : List Char}
    (h : (entries text).reverse.find? (tracedSide · = traced) = some last) :
    Replaces (entries text) traced (sourceSide last) := by
  have htraced : tracedSide last = traced := by simpa using List.find?_some h
  have hmem := mem_of_mem_entries (List.mem_reverse.1 (List.mem_of_find?_eq_some h))
  refine replaces_iff_find?.2 ⟨htraced ▸ not_mem_tracedSide last, ?_⟩
  rw [h, ← htraced, ← eq_tracedSide_append hmem]

theorem Replaces.unique {source' : List Char} (h : Replaces es traced source)
    (h' : Replaces es traced source') : source = source' := by
  have hsame := (replaces_iff_find?.1 h).2.symm.trans (replaces_iff_find?.1 h').2
  simpa using hsame

theorem Replaces.mem (h : Replaces es traced source) : traced ++ '=' :: source ∈ es := by
  obtain ⟨-, earlier, later, rfl, -⟩ := h
  exact List.mem_append_right _ (.head _)

/-- Entries for different traced sides may be in any order. -/
theorem replaces_iff_mem (hdistinct : (es.map tracedSide).Nodup) :
    Replaces es traced source ↔ '=' ∉ traced ∧ traced ++ '=' :: source ∈ es := by
  refine ⟨fun h => ⟨h.1, h.mem⟩, ?_⟩
  rintro ⟨htraced, hmem⟩
  obtain ⟨earlier, later, rfl⟩ := List.append_of_mem hmem
  refine ⟨htraced, earlier, later, rfl, fun entry hentry heq => ?_⟩
  rw [List.map_append, List.map_cons, tracedSide_append htraced, List.nodup_append,
    List.nodup_cons] at hdistinct
  exact hdistinct.2.1.1 (heq ▸ List.mem_map_of_mem hentry)

/-- The longest traced side that a name begins with is told by its length. -/
theorem Rewrites.unique {result result' : List Char} (h : Rewrites es file result)
    (h' : Rewrites es file result') : result = result' := by
  cases h with
  | @replaced traced source rest hreplaces hfile hlongest =>
    have hlead : tracedSide (traced ++ '=' :: source) <+: file := by
      rw [tracedSide_append hreplaces.1, hfile]
      exact List.prefix_append _ _
    cases h' with
    | @replaced traced' source' rest' hreplaces' hfile' hlongest' =>
      have hlead' : tracedSide (traced' ++ '=' :: source') <+: file := by
        rw [tracedSide_append hreplaces'.1, hfile']
        exact List.prefix_append _ _
      have hle := hlongest' _ hreplaces.mem hlead
      have hge := hlongest _ hreplaces'.mem hlead'
      rw [tracedSide_append hreplaces.1] at hle
      rw [tracedSide_append hreplaces'.1] at hge
      obtain ⟨rfl, rfl⟩ := List.append_inj (hfile.symm.trans hfile') (Nat.le_antisymm hle hge)
      rw [hreplaces.unique hreplaces']
    | kept hnone => exact absurd hlead (hnone _ hreplaces.mem)
  | kept hnone =>
    cases h' with
    | @replaced traced' source' rest' hreplaces' hfile' hlongest' =>
      refine absurd ?_ (hnone _ hreplaces'.mem)
      rw [tracedSide_append hreplaces'.1, hfile']
      exact List.prefix_append _ _
    | kept => rfl

theorem Rewrites.perm {result : List Char} (h : Rewrites es file result) (hperm : es'.Perm es)
    (hdistinct : (es.map tracedSide).Nodup) : Rewrites es' file result := by
  have hdistinct' : (es'.map tracedSide).Nodup := (hperm.map tracedSide).nodup_iff.2 hdistinct
  cases h with
  | replaced hreplaces hfile hlongest =>
    refine .replaced ?_ hfile fun entry hentry => hlongest entry (hperm.mem_iff.1 hentry)
    rw [replaces_iff_mem hdistinct', hperm.mem_iff]
    exact (replaces_iff_mem hdistinct).1 hreplaces
  | kept hnone => exact .kept fun entry hentry => hnone entry (hperm.mem_iff.1 hentry)

-- ---------------------------------------------------------------------------
-- Leads
-- ---------------------------------------------------------------------------

/-- The text that stands for a source. -/
def sourceText (source : List Char) : String :=
  if source = [] then "." else String.ofList source

/-- The lead that an entry writes down. -/
def leadOf (entry : List Char) : String × String :=
  (String.ofList (tracedSide entry), sourceText (sourceSide entry))

theorem toList_sourceText (source : List Char) :
    (sourceText source).toList = if source = [] then ['.'] else source := by
  unfold sourceText
  split
  · rfl
  · rw [String.toList_ofList]

/-- A part has two sides just if it is an entry. -/
theorem sides?_eq (part : List Char) :
    sides? part =
      if '=' ∈ part ∧ part.head? ≠ some '=' then some (leadOf part) else none := by
  by_cases hmem : '=' ∈ part
  · have htraced : part.takeWhile (· ≠ '=') = [] ↔ part.head? = some '=' := by
      obtain ⟨c, rest, rfl⟩ := List.exists_cons_of_ne_nil (List.ne_nil_of_mem hmem)
      by_cases hc : c = '='
      · simp [hc]
      · simp [hc]
    have hrest : part.dropWhile (· ≠ '=') ≠ [] := by
      intro hnone
      simpa using List.dropWhile_eq_nil_iff.1 hnone _ hmem
    obtain ⟨c, rest, hcons⟩ := List.exists_cons_of_ne_nil hrest
    simp only [sides?, hcons, htraced, leadOf, tracedSide, sourceSide, sourceText, List.tail_cons, hmem,
      true_and]
    by_cases hhead : part.head? = some '='
    · rw [if_pos hhead, if_neg (not_not.2 hhead)]
    · rw [if_neg hhead, if_pos hhead]
  · have hnone : part.dropWhile (· ≠ '=') = [] := by
      rw [List.dropWhile_eq_nil_iff]
      exact fun c hc => decide_eq_true (ne_of_mem_of_not_mem hc hmem)
    rw [sides?, hnone, if_neg fun h => hmem h.1]

theorem parseLeads_eq (text : String) :
    parseLeads text = Json.uniteFields ((entries text).map leadOf) := by
  have hparts : ∀ parts : List (List Char), parts.filterMap sides? =
      (parts.filter fun part => '=' ∈ part ∧ part.head? ≠ some '=').map leadOf := by
    intro parts
    rw [← List.filterMap_eq_map, List.filterMap_filter]
    refine List.filterMap_congr fun part _ => ?_
    simp [sides?_eq]
  rw [parseLeads, entries, ← hparts, ← Text.pieces_eq_splitOn]

theorem mem_parseLeads {text : String} {lead : String × String} :
    lead ∈ parseLeads text ↔
      ∃ source, Replaces (entries text) lead.1.toList source ∧ lead.2 = sourceText source := by
  have hkey : ∀ entry, decide (String.ofList (tracedSide entry) = lead.1) =
      decide (tracedSide entry = lead.1.toList) := by
    intro entry
    rw [decide_eq_decide, ← String.toList_inj, String.toList_ofList]
  rw [parseLeads_eq, Json.mem_uniteFields, ← List.map_reverse]
  unfold leadOf
  rw [lookup_map]
  simp only [hkey]
  constructor
  · intro h
    obtain ⟨entry, hentry, hsource⟩ := Option.map_eq_some_iff.1 h
    exact ⟨_, replaces_of_find? hentry, hsource.symm⟩
  · rintro ⟨source, hreplaces, hsource⟩
    obtain ⟨htraced, hfind⟩ := replaces_iff_find?.1 hreplaces
    rw [hfind, Option.map_some, sourceSide_append htraced, hsource]

theorem exists_replaces {text : String} (h : entry ∈ entries text) :
    ∃ source, Replaces (entries text) (tracedSide entry) source := by
  obtain ⟨last, hlast⟩ := Option.isSome_iff_exists.1
    (List.find?_isSome (p := (tracedSide · = tracedSide entry)).2
      ⟨entry, List.mem_reverse.2 h, decide_eq_true rfl⟩)
  exact ⟨_, replaces_of_find? hlast⟩

-- ---------------------------------------------------------------------------
-- The longest lead
-- ---------------------------------------------------------------------------

theorem foldl_longerLead (lead : String × String) (more : List (String × String)) :
    more.foldl longerLead lead ∈ lead :: more ∧
      ∀ other ∈ lead :: more, other.1.length ≤ (more.foldl longerLead lead).1.length := by
  induction more generalizing lead with
  | nil => simp
  | cons next rest ih =>
    obtain ⟨hmem, hlongest⟩ := ih (longerLead lead next)
    have hpick : longerLead lead next = lead ∨ longerLead lead next = next := by
      unfold longerLead
      split
      · exact .inr rfl
      · exact .inl rfl
    have hlonger : lead.1.length ≤ (longerLead lead next).1.length ∧
        next.1.length ≤ (longerLead lead next).1.length := by
      unfold longerLead
      split <;> omega
    have hfirst := hlongest _ (.head _)
    rw [List.foldl_cons]
    refine ⟨?_, ?_⟩
    · rcases List.mem_cons.1 hmem with heq | hrest
      · rcases hpick with hpick | hpick
        · rw [heq, hpick]
          exact .head _
        · rw [heq, hpick]
          exact .tail _ (.head _)
      · exact .tail _ (.tail _ hrest)
    · rintro other hother
      rcases List.mem_cons.1 hother with rfl | hother
      · omega
      · rcases List.mem_cons.1 hother with rfl | hother
        · omega
        · exact hlongest other (.tail _ hother)

section Longest

variable {leads : List (String × String)} {file : String}

theorem mem_leads_of_file {lead : String × String} :
    lead ∈ leads.filter (fun lead => lead.1.toList.isPrefixOf file.toList) ↔
      lead ∈ leads ∧ lead.1.toList <+: file.toList := by
  rw [List.mem_filter, List.isPrefixOf_iff_prefix]

theorem longestLead?_eq_none (h : longestLead? leads file = none) :
    ∀ lead ∈ leads, ¬ lead.1.toList <+: file.toList := by
  intro lead hlead hprefix
  unfold longestLead? at h
  split at h
  · rename_i hnone
    have hmem := mem_leads_of_file.2 ⟨hlead, hprefix⟩
    rw [hnone] at hmem
    cases hmem
  · cases h

theorem longestLead?_eq_some {lead : String × String} (h : longestLead? leads file = some lead) :
    lead ∈ leads ∧ lead.1.toList <+: file.toList ∧
      ∀ other ∈ leads, other.1.toList <+: file.toList → other.1.length ≤ lead.1.length := by
  unfold longestLead? at h
  split at h
  · cases h
  · rename_i first more hleads
    obtain ⟨hmem, hlongest⟩ := foldl_longerLead first more
    rw [Option.some.inj h, ← hleads] at hmem hlongest
    obtain ⟨hlead, hprefix⟩ := mem_leads_of_file.1 hmem
    exact ⟨hlead, hprefix, fun other hother hother' =>
      hlongest other (mem_leads_of_file.2 ⟨hother, hother'⟩)⟩

end Longest

/-- A map of the leads that a text writes down rewrites a name by the entries of the text. -/
theorem rewrites_sourceFile {m : SourceMap} {text : String} (hm : m.leads = parseLeads text)
    (file : String) : Rewrites (entries text) file.toList (m.sourceFile file).toList := by
  unfold sourceFile
  cases hlead : longestLead? m.leads file with
  | none =>
    refine .kept fun entry hentry hprefix => ?_
    obtain ⟨source, hreplaces⟩ := exists_replaces hentry
    have hmem : (String.ofList (tracedSide entry), sourceText source) ∈ m.leads := by
      rw [hm, mem_parseLeads, String.toList_ofList]
      exact ⟨source, hreplaces, rfl⟩
    refine longestLead?_eq_none hlead _ hmem ?_
    rwa [String.toList_ofList]
  | some lead =>
    obtain ⟨hmem, ⟨rest, hrest⟩, hlongest⟩ := longestLead?_eq_some hlead
    obtain ⟨source, hreplaces, hsource⟩ := mem_parseLeads.1 (hm ▸ hmem)
    have hdrop : file.toList.drop lead.1.length = rest := by
      rw [← hrest, ← String.length_toList, List.drop_left]
    simp only [String.toList_append, String.toList_ofList, hdrop, hsource, toList_sourceText]
    refine .replaced hreplaces hrest.symm fun entry hentry hprefix => ?_
    obtain ⟨source', hreplaces'⟩ := exists_replaces hentry
    have hother : (String.ofList (tracedSide entry), sourceText source') ∈ m.leads := by
      rw [hm, mem_parseLeads, String.toList_ofList]
      exact ⟨source', hreplaces', rfl⟩
    have hle := hlongest _ hother (by rwa [String.toList_ofList])
    rwa [← String.length_toList, String.toList_ofList, ← String.length_toList] at hle

-- ---------------------------------------------------------------------------
-- Offsets
-- ---------------------------------------------------------------------------

theorem readOffsets_of_ints (table : List (String × Int)) :
    readOffsets (table.map fun row => (row.1, Json.int row.2)) = .ok (Json.uniteFields table) := by
  rw [readOffsets, Json.uniteFields_map, List.mapM_map]
  induction Json.uniteFields table with
  | nil => rfl
  | cons row rest ih =>
    rw [List.mapM_cons, ih]
    rfl

theorem leads_of_ofSettings {text : String} {offsets : List (String × Json)} {m : SourceMap}
    (h : ofSettings text offsets = .ok m) : m.leads = parseLeads text := by
  unfold ofSettings at h
  cases hread : readOffsets offsets with
  | error fault =>
    rw [hread] at h
    cases h
  | ok read =>
    rw [hread] at h
    cases h
    rfl

theorem ofSettings_of_ints (text : String) (table : List (String × Int)) :
    ofSettings text (table.map fun row => (row.1, .int row.2)) =
      .ok { leads := parseLeads text, offsets := Json.uniteFields table } := by
  rw [ofSettings, readOffsets_of_ints]
  rfl

/-- There is a map of any leads and any offsets. It rewrites a name by the longest traced side that
the name begins with, in whatever order entries for different traced sides are written down, and it
moves lines by the last offset for the name that this gives. -/
theorem relocates_by_longest_lead (text : String) (table : List (String × Int)) :
    ∃ m, ofSettings text (table.map fun row => (row.1, .int row.2)) = .ok m ∧
      (∀ file result, Rewrites (entries text) file.toList result ↔
        result = (m.sourceFile file).toList) ∧
      (∀ text' offsets' m', ofSettings text' offsets' = .ok m' →
        (entries text').Perm (entries text) → ((entries text).map tracedSide).Nodup →
        ∀ file, m'.sourceFile file = m.sourceFile file) ∧
      ∀ file line, m.relocate file line =
        (m.sourceFile file, line + (table.reverse.lookup (m.sourceFile file)).getD 0) := by
  have hm := ofSettings_of_ints text table
  have hrewrites := rewrites_sourceFile (leads_of_ofSettings hm)
  refine ⟨_, hm, ?_, ?_, ?_⟩
  · intro file result
    constructor
    · exact fun h => h.unique (hrewrites file)
    · rintro rfl
      exact hrewrites file
  · intro text' offsets' m' hm' hperm hdistinct file
    have hrewrites' := rewrites_sourceFile (leads_of_ofSettings hm') file
    exact String.toList_injective
      (hrewrites'.unique ((hrewrites file).perm hperm hdistinct))
  · intro file line
    rw [relocate, offset, Json.lookup_uniteFields]

example :
    sourceFile { leads := parseLeads "/build=/src:/build/gen=/src/generated:=x:/build=:y" }
      "/build/a.js" = "./a.js" := by
  decide +kernel

end SourceMap

end BytecodeCoverage
