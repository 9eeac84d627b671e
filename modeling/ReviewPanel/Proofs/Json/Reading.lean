import Mathlib.Tactic.SplitIfs
import ReviewPanel.Json.Record
import ReviewPanel.Labels
import ReviewPanel.Proofs.Json.Documents
import ReviewPanel.Proofs.Table

/-!
# Readers understand what is written

`Reader.Reads r v a` says that the reader `r` makes `a` of the value `v`, whether the value is read from
a text or as it is.  There is one rule for each reader, so that what a reader makes of a document is
derived along the structure of the document.

A record is read member by member into a draft.  `Fields.Filled` is the invariant of this loop: the
fields of the members seen so far hold what their readers make of them, the others are blank.  The order
of the members does not matter.

## Main definitions

* `Reader.Reads` : what a reader makes of a value.
* `Fields.Makes` : what fields make of members.

## Main statements

* `Reader.reads_list`, `Reader.reads_table`, `Labels.reads_toValue` : containers.
* `Reader.reads_record` : **a record is read from its members, in whatever order they stand.**
* `Reader.runText_prettyText`, `Reader.runText_compactText` : a reader makes of a printed value what it
  makes of the value.
-/

namespace ReviewPanel

/-! ### Tables and dictionaries from their entries -/

namespace Table

variable {κ α : Type} [DecidableEq κ]

theorem get?_foldl_set (es : List (κ × α)) (t : Table κ α) (k : κ) (a : α)
    (hes : ∀ b, (k, b) ∈ es → b = a) :
    (es.foldl (fun t e => t.set e.1 e.2) t).get? k =
      if k ∈ es.map Prod.fst then some a else t.get? k := by
  induction es generalizing t with
  | nil => rfl
  | cons e es ih =>
    rw [List.foldl_cons, ih _ fun b hb => hes b (List.mem_cons_of_mem _ hb), List.map_cons, get?_set]
    by_cases hmem : k ∈ es.map Prod.fst
    · rw [if_pos hmem, if_pos (List.mem_cons_of_mem _ hmem)]
    · by_cases hk : k = e.1
      · have he : e.2 = a := hes e.2 (hk ▸ List.mem_cons_self)
        simp [hmem, ← hk, he]
      · simp [hmem, hk]

/-- A table is made of its entries, in whatever order they stand. -/
theorem ofList_eq {t : Table κ α} {es : List (κ × α)}
    (h : ∀ k a, (k, a) ∈ es ↔ t.get? k = some a) : ofList es = t := by
  have hkey : ∀ k, k ∈ es.map Prod.fst ↔ ∃ a, t.get? k = some a := fun k => by
    simp only [List.mem_map, Prod.exists, exists_and_right, exists_eq_right, h]
  ext k a
  cases hk : t.get? k with
  | none =>
    -- any value will do for a key that is not there
    have hes : ∀ b, (k, b) ∈ es → b = a := fun b hb => by
      rw [h, hk] at hb
      cases hb
    rw [ofList, get?_foldl_set _ _ k a hes, if_neg (by rw [hkey, hk]; simp), get?_empty]
  | some a' =>
    have hes : ∀ b, (k, b) ∈ es → b = a' := fun b hb => by
      rw [h, hk] at hb
      exact (Option.some.inj hb).symm
    rw [ofList, get?_foldl_set _ _ k a' hes, if_pos ((hkey k).2 ⟨a', hk⟩)]

end Table

section Dictionary

variable {α : Type}

theorem insertEntry_of_forall_lt {es : List (String × α)} {key : String} (a : α)
    (h : ∀ e ∈ es, e.1 < key) : insertEntry key a es = es ++ [(key, a)] := by
  induction es with
  | nil => rfl
  | cons e es ih =>
    have hlt : e.1 < key := h e List.mem_cons_self
    rw [insertEntry, if_neg (String.lt_asymm hlt), if_neg (Std.ne_of_lt hlt).symm,
      ih fun e' he' => h e' (List.mem_cons_of_mem _ he')]
    rfl

theorem sortEntries_of_increasing {es : List (String × α)} (h : Increasing es) :
    sortEntries es = es := by
  suffices hfold : ∀ acc : List (String × α), Increasing (acc ++ es) →
      es.foldl (fun acc e => insertEntry e.1 e.2 acc) acc = acc ++ es from hfold [] h
  clear h
  induction es with
  | nil => simp
  | cons e es ih =>
    intro acc hacc
    have hlast : ∀ e' ∈ acc, e'.1 < e.1 := fun e' he' =>
      (List.pairwise_append.1 hacc).2.2 e' he' e List.mem_cons_self
    rw [List.foldl_cons, insertEntry_of_forall_lt _ hlast, ih]
    · simp
    · simpa [Increasing] using hacc

/-- A dictionary is made of its entries. -/
theorem Dictionary.ofList_entries (d : Dictionary α) : Dictionary.ofList d.entries = d :=
  Dictionary.ext (sortEntries_of_increasing d.increasing)

theorem findEntry_eq_none {es : List (String × α)} {key : String} (h : key ∉ es.map Prod.fst) :
    findEntry key es = none := by
  induction es with
  | nil => rfl
  | cons e es ih =>
    rw [List.map_cons, List.mem_cons, not_or] at h
    rw [findEntry, if_neg h.1, ih h.2]

theorem findEntry_of_mem {es : List (String × α)} (hes : (es.map Prod.fst).Nodup) {e : String × α}
    (he : e ∈ es) : findEntry e.1 es = some e.2 := by
  induction es with
  | nil => cases he
  | cons e' es ih =>
    rw [List.map_cons, List.nodup_cons] at hes
    rcases List.mem_cons.1 he with rfl | he
    · exact if_pos rfl
    · have hne : e.1 ≠ e'.1 := fun h => hes.1 (h ▸ List.mem_map_of_mem he)
      rw [findEntry, if_neg hne, ih hes.2 he]

end Dictionary

namespace Json

open Document (ofValue ofItems ofMembers)

variable {α β κ : Type}

namespace Reader

/-- The reader makes `a` of the value, whether it comes from a text or not. -/
def Reads (r : Reader α) (v : Value) (a : α) : Prop := ∀ o, r o (ofValue v) = .ok a

theorem Reads.unique {r : Reader α} {v : Value} {a b : α} (ha : r.Reads v a) (hb : r.Reads v b) :
    a = b :=
  Except.ok.inj ((ha .text).symm.trans (hb .text))

/-! ### Single values -/

theorem reads_string (s : String) : string.Reads (.str s) s := fun _ => by
  rw [ofValue]
  rfl

theorem reads_boolean (b : Bool) : boolean.Reads (.bool b) b := fun _ => by
  rw [ofValue]
  rfl

theorem reads_naturalBelow {n bound : Nat} (want : String) (h : n < bound) :
    (naturalBelow bound want).Reads (.nat n) n := fun _ => by
  have hn : (0 : Int) ≤ (n : Int) ∧ (n : Int) < bound := ⟨Int.natCast_nonneg n, by exact_mod_cast h⟩
  rw [Value.nat, ofValue, naturalBelow, if_pos hn, Int.toNat_natCast]

theorem reads_word [Named κ] (k : κ) : word.Reads (.word k) k := fun o => by
  rw [Value.word, ofValue, word, lookup, Named.ofName?_name]

theorem reads_null (r : Reader α) : (optional r).Reads .null none := fun _ => by
  rw [ofValue]
  rfl

theorem Reads.optional {r : Reader α} {v : Value} {a : α} (h : r.Reads v a) (hv : v ≠ .null) :
    (optional r).Reads v (some a) := fun o => by
  have hdoc : Reader.optional r o (ofValue v) = (r o (ofValue v)).map some := by
    cases v with
    | null => exact absurd rfl hv
    | _ => rw [ofValue]; rfl
  rw [hdoc, h o]
  rfl

/-! ### Containers -/

theorem each_ofItems {r : Reader α} {f : α → Value} {as : List α}
    (h : ∀ a ∈ as, r.Reads (f a) a) (o : Origin) : each r o (ofItems (as.map f)) = .ok as := by
  induction as with
  | nil => rfl
  | cons a as ih =>
    rw [List.map_cons, ofItems, each, h a List.mem_cons_self o,
      ih fun a' ha' => h a' (List.mem_cons_of_mem _ ha')]
    rfl

theorem reads_list {r : Reader α} {f : α → Value} {as : List α}
    (h : ∀ a ∈ as, r.Reads (f a) a) : (list r).Reads (.arr (as.map f)) as := fun o => by
  rw [ofValue, list, each_ofItems h o]
  rfl

theorem eachMember_ofMembers {key : String → Except DecodeError κ} {name : κ → String}
    (hkey : ∀ k, key (name k) = .ok k) {r : Reader α} {f : α → Value} {es : List (κ × α)}
    (h : ∀ e ∈ es, r.Reads (f e.2) e.2) (o : Origin) :
    eachMember key r o (ofMembers (es.map fun e => (name e.1, f e.2))) = .ok es := by
  induction es with
  | nil => rfl
  | cons e es ih =>
    rw [List.map_cons, ofMembers, eachMember, h e List.mem_cons_self o,
      ih fun e' he' => h e' (List.mem_cons_of_mem _ he')]
    simp only [Document.need, bind, Except.bind, hkey]
    rfl

theorem reads_members {key : String → Except DecodeError κ} {name : κ → String}
    (hkey : ∀ k, key (name k) = .ok k) {r : Reader α} {f : α → Value} {es : List (κ × α)}
    (h : ∀ e ∈ es, r.Reads (f e.2) e.2) :
    (members key r).Reads (.obj (es.map fun e => (name e.1, f e.2))) es := fun o => by
  rw [ofValue, members, eachMember_ofMembers hkey h o]
  rfl

/-- A table is read from its entries, in whatever order they stand. -/
theorem reads_table [Named κ] [DecidableEq κ] {r : Reader α} {f : α → Value} {t : Table κ α}
    {es : List (κ × α)} (hes : ∀ k a, (k, a) ∈ es ↔ t.get? k = some a)
    (h : ∀ e ∈ es, r.Reads (f e.2) e.2) :
    (table r).Reads (.obj (es.map fun e => (Named.name e.1, f e.2))) t := by
  intro o
  have hkey : ∀ k : κ, lookup κ (Named.name k) = .ok k := fun k => by
    rw [lookup, Named.ofName?_name]
  rw [Reader.table, reads_members hkey h o]
  exact congrArg Except.ok (Table.ofList_eq hes)

end Reader

/-! ### Records -/

namespace Fields

/-- The names of the fields. -/
def names : {α : Type} → Fields α → List String
  | _, .build _ => []
  | _, .field before name .. => before.names ++ [name]

@[simp] theorem names_build (a : α) : (build a).names = [] := rfl

@[simp] theorem names_required (before : Fields (β → α)) (name : String) (read : Reader β) :
    (before.required name read).names = before.names ++ [name] := rfl

@[simp] theorem names_optional (before : Fields (Option β → α)) (name : String) (read : Reader β) :
    (before.optional name read).names = before.names ++ [name] := rfl

@[simp] theorem names_defaulted (before : Fields (β → α)) (name : String) (read : Reader β) (b : β) :
    (before.defaulted name read b).names = before.names ++ [name] := rfl

/-- The fields make `a` of the members that `look` finds. -/
def Makes : {α : Type} → Fields α → (String → Option Value) → α → Prop
  | _, .build a', _, a => a = a'
  | _, .field before name read absent _, look, a =>
    ∃ make b, before.Makes look make ∧ a = make b ∧
      match look name with
      | some v => read.Reads v b
      | none => absent = some b

/-- The draft holds what the readers make of the members that `look` finds, and nothing else. -/
def Filled : {α : Type} → (f : Fields α) → (String → Option Value) → f.Draft → Prop
  | _, .build _, _, _ => True
  | _, .field before name read _ _, look, draft =>
    before.Filled look draft.1 ∧
      match look name with
      | some v => ∃ b, draft.2 = some b ∧ read.Reads v b
      | none => draft.2 = none

theorem Makes.build (a : α) (look : String → Option Value) : (Fields.build a).Makes look a := rfl

theorem filled_blank : ∀ {α : Type} (f : Fields α), f.Filled (fun _ => none) f.blank
  | _, .build _ => trivial
  | _, .field before .. => ⟨filled_blank before, rfl⟩

theorem Filled.congr : ∀ {α : Type} {f : Fields α} {look look' : String → Option Value} {draft : f.Draft},
    f.Filled look draft → (∀ n ∈ f.names, look' n = look n) → f.Filled look' draft
  | _, .build _, _, _, _, _, _ => trivial
  | _, .field before name read _ _, look, look', draft, h, heq => by
    have hbefore : ∀ n ∈ before.names, look' n = look n := fun n hn =>
      heq n (List.mem_append_left _ hn)
    have hname : look' name = look name := heq name (List.mem_append_right _ List.mem_cons_self)
    refine ⟨h.1.congr hbefore, ?_⟩
    rw [hname]
    exact h.2

/-- Members with other names are not looked at. -/
theorem put_eq_none : ∀ {α : Type} {f : Fields α} {name : String}, name ∉ f.names →
    ∀ (o : Origin) (draft : f.Draft) (d : Document), f.put o draft name d = none
  | _, .build _, _, _, _, _, _ => rfl
  | _, .field before own _ _ _, name, h, o, draft, d => by
    simp only [names, List.mem_append, List.mem_singleton, not_or] at h
    rw [put, put_eq_none h.1 o draft.1 d]
    exact if_neg h.2

/-- **One member fills its field** and leaves the others as they are. -/
theorem put_eq_ok : ∀ {α : Type} {f : Fields α} {look full : String → Option Value} {draft : f.Draft}
    {a : α} {name : String} {v : Value}, f.Filled look draft → f.Makes full a → f.names.Nodup →
    name ∈ f.names → look name = none → full name = some v → ∀ o, ∃ draft',
      f.put o draft name (ofValue v) = some (.ok draft') ∧
        f.Filled (fun n => if n = name then some v else look n) draft'
  | _, .build _, _, _, _, _, _, _, _, _, _, hmem, _, _, _ => absurd hmem (by simp [names])
  | _, .field before own read _ _, look, full, draft, a, name, v, hfill, hmakes, hnodup, hmem, hnew,
      hv, o => by
    obtain ⟨hbefore, hown⟩ := hfill
    obtain ⟨make, b, hmake, -, hread⟩ := hmakes
    rw [names, List.nodup_append] at hnodup
    obtain ⟨hnodup, -, hapart⟩ := hnodup
    by_cases hin : name ∈ before.names
    · obtain ⟨rest, hput, hrest⟩ := put_eq_ok hbefore hmake hnodup hin hnew hv o
      have hne : own ≠ name := (hapart name hin own List.mem_cons_self).symm
      refine ⟨(rest, draft.2), ?_, hrest, ?_⟩
      · rw [put, hput]
        rfl
      · simp only [if_neg hne]
        exact hown
    · have heq : name = own := by
        rcases List.mem_append.1 hmem with h | h
        · exact absurd h hin
        · exact List.mem_singleton.1 h
      subst heq
      rw [hv] at hread
      rw [hnew] at hown
      refine ⟨(draft.1, some b), ?_, hbefore.congr fun n hn => ?_, ?_⟩
      · rw [put, put_eq_none hin o draft.1 _]
        simp only [if_pos, hown, hread o]
        rfl
      · have hne : n ≠ name := fun h => hin (h ▸ hn)
        exact if_neg hne
      · simp only [if_pos]
        exact ⟨b, rfl, hread⟩

theorem putAll_eq_ok {f : Fields α} {full : String → Option Value} {a : α} (hmakes : f.Makes full a)
    (hnodup : f.names.Nodup) (o : Origin) :
    ∀ (ms : List (String × Value)) (look : String → Option Value) (draft : f.Draft),
      f.Filled look draft → (ms.map Prod.fst).Nodup →
      (∀ m ∈ ms, m.1 ∈ f.names ∧ look m.1 = none ∧ full m.1 = some m.2) →
      ∃ draft', f.putAll o draft (ofMembers ms) = .ok draft' ∧
        f.Filled (fun n => (findEntry n ms).or (look n)) draft' := by
  intro ms
  induction ms with
  | nil =>
    intro look draft hfill _ _
    refine ⟨draft, rfl, hfill.congr fun n _ => ?_⟩
    simp [findEntry]
  | cons m ms ih =>
    intro look draft hfill hms hall
    obtain ⟨hmem, hnew, hfull⟩ := hall m List.mem_cons_self
    obtain ⟨draft₁, hput, hfill₁⟩ := put_eq_ok hfill hmakes hnodup hmem hnew hfull o
    rw [List.map_cons, List.nodup_cons] at hms
    have hrest : ∀ m' ∈ ms, m'.1 ∈ f.names ∧ (if m'.1 = m.1 then some m.2 else look m'.1) = none ∧
        full m'.1 = some m'.2 := by
      intro m' hm'
      obtain ⟨hmem', hnew', hfull'⟩ := hall m' (List.mem_cons_of_mem _ hm')
      have hne : m'.1 ≠ m.1 := fun h => hms.1 (h ▸ List.mem_map_of_mem hm')
      exact ⟨hmem', by rw [if_neg hne, hnew'], hfull'⟩
    obtain ⟨draft₂, hputAll, hfill₂⟩ := ih _ draft₁ hfill₁ hms.2 hrest
    refine ⟨draft₂, ?_, hfill₂.congr fun n _ => ?_⟩
    · rw [ofMembers, putAll]
      simp only [Document.need, bind, Except.bind, hput]
      exact hputAll
    · by_cases hn : n = m.1
      · rw [findEntry, if_pos hn, if_pos hn, findEntry_eq_none (hn ▸ hms.1)]
        rfl
      · rw [findEntry, if_neg hn, if_neg hn]

theorem finish_eq_ok : ∀ {α : Type} {f : Fields α} {look : String → Option Value} {draft : f.Draft}
    {a : α}, f.Filled look draft → f.Makes look a → f.finish draft = .ok a
  | _, .build _, _, _, _, _, hmakes => congrArg Except.ok hmakes.symm
  | _, .field before name read absent _, look, draft, a, hfill, hmakes => by
    obtain ⟨hbefore, hown⟩ := hfill
    obtain ⟨make, b, hmake, rfl, hread⟩ := hmakes
    have hbuild : before.finish draft.1 = .ok make := finish_eq_ok hbefore hmake
    have hfield : draft.2.or absent = some b := by
      cases hv : look name with
      | none =>
        rw [hv] at hown hread
        rw [hown, hread]
        rfl
      | some v =>
        rw [hv] at hown hread
        obtain ⟨b', hdraft, hb'⟩ := hown
        rw [hdraft, hb'.unique hread]
        rfl
    rw [finish, hbuild]
    simp only [bind, Except.bind, hfield]
    rfl

end Fields

namespace Reader

/-- **A record is read from its members**, in whatever order they stand. -/
theorem reads_record (name : String) {f : Fields α} {ms : List (String × Value)} {a : α}
    (hnodup : f.names.Nodup) (hmakes : f.Makes (findEntry · ms) a) (hms : (ms.map Prod.fst).Nodup)
    (hnames : ∀ m ∈ ms, m.1 ∈ f.names) : (record name f).Reads (.obj ms) a := by
  intro o
  have hall : ∀ m ∈ ms, m.1 ∈ f.names ∧ (none : Option Value) = none ∧
      findEntry m.1 ms = some m.2 := fun m hm =>
    ⟨hnames m hm, rfl, findEntry_of_mem hms hm⟩
  obtain ⟨draft, hputAll, hfill⟩ :=
    f.putAll_eq_ok hmakes hnodup o ms (fun _ => none) f.blank f.filled_blank hms hall
  have hfinish : f.finish draft = .ok a :=
    Fields.finish_eq_ok (hfill.congr fun n _ => (Option.or_none).symm) hmakes
  rw [ofValue, record, hputAll]
  exact hfinish

theorem runText_of_parse {r : Reader α} {v : Value} {a : α} (h : r.Reads v a)
    (hv : v.Numbers Number.Fits) {symbols : List Symbol}
    (hparse : Document.parse symbols = (Document.ofText v, false)) : r.runText symbols = .ok a := by
  rw [runText, hparse, Document.ofText_eq_ofValue hv]
  simp only [h .text]
  rfl

/-- **A reader makes of a printed value what it makes of the value.** -/
theorem runText_prettyText {r : Reader α} {v : Value} {a : α} (h : r.Reads v a)
    (hv : v.Numbers Number.Fits) : r.runText (Utf8.ofString v.prettyText) = .ok a :=
  runText_of_parse h hv (Document.parse_prettyText (hv.mono fun _ => Number.Fits.isWhole))

/-- The same for the text without blanks. -/
theorem runText_compactText {r : Reader α} {v : Value} {a : α} (h : r.Reads v a)
    (hv : v.Numbers Number.Fits) : r.runText (Utf8.ofString v.compactText) = .ok a :=
  runText_of_parse h hv (Document.parse_compactText (hv.mono fun _ => Number.Fits.isWhole))

end Reader

end Json

theorem Labels.reads_toValue (l : Labels) : Labels.reader.Reads l.toValue l := by
  intro o
  have htexts : ∀ e ∈ l.entries, Json.Reader.string.Reads (.str e.2) e.2 := fun e _ =>
    Json.Reader.reads_string e.2
  rw [Labels.reader, Labels.toValue, Json.Reader.reads_members (fun _ => rfl) htexts o]
  exact congrArg Except.ok l.ofList_entries

end ReviewPanel
