import Mathlib.Data.List.Nodup
import Mathlib.Data.List.Perm.Basic
import ReviewPanel.Proofs.Json.Reading

/-!
# Values that are recovered

A document is written with its members in the order of the fields.  Whoever holds it as a generic value
finds them in the order of their names (`Value.canonical`).  `Reader.Recovers r v a` says that the
reader makes `a` of the value in either order, and that every number of the value survives being written
out; so `a` is recovered from the text in both layouts and from the generic value.

As for `Reader.Reads` there is one rule for each reader, and the rule for a record goes along its fields.

## Main definitions

* `Reader.Recovers`, `Fields.Recovers` : a value, or members, of which a reader makes `a` in any order.
* `Reader.RoundTrips` : what is written of `a` is read as `a`, from every form.

## Main statements

* `sortEntries_perm` : sorting entries with distinct keys loses none.
* `Reader.recovers_list`, `Reader.recovers_table`, `Reader.recovers_record` : the rules for containers.
* `Reader.Recovers.roundTrips` : **a value that is recovered makes the round trip through every form.**
* `Document.toValue_ofValue` : the generic value of a document is the value in canonical order.
-/

namespace ReviewPanel

/-! ### Entries in the order of their keys -/

section Entries

variable {α β : Type}

theorem Increasing.nodup_keys {es : List (String × α)} (h : Increasing es) :
    (es.map Prod.fst).Nodup :=
  List.pairwise_map.2 (h.imp fun hlt => Std.ne_of_lt hlt)

theorem insertEntry_perm {es : List (String × α)} {key : String} (a : α)
    (h : key ∉ es.map Prod.fst) : (insertEntry key a es).Perm ((key, a) :: es) := by
  induction es with
  | nil => exact .refl _
  | cons e es ih =>
    rw [List.map_cons, List.mem_cons, not_or] at h
    rw [insertEntry, if_neg h.1]
    split_ifs with hlt
    · exact .refl _
    · exact ((ih h.2).cons e).trans (.swap _ _ es)

/-- **Sorting entries with distinct keys loses none.** -/
theorem sortEntries_perm {es : List (String × α)} (h : (es.map Prod.fst).Nodup) :
    (sortEntries es).Perm es := by
  suffices hfold : ∀ acc : List (String × α), ((acc ++ es).map Prod.fst).Nodup →
      (es.foldl (fun acc e => insertEntry e.1 e.2 acc) acc).Perm (acc ++ es) from hfold [] h
  clear h
  induction es with
  | nil => intro acc _; simp
  | cons e es ih =>
    intro acc hacc
    have hmove : (acc ++ e :: es).Perm (e :: acc ++ es) := List.perm_middle
    have hnodup : ((e :: acc ++ es).map Prod.fst).Nodup := (hmove.map _).nodup_iff.1 hacc
    have hnew : e.1 ∉ acc.map Prod.fst := fun hmem =>
      (List.nodup_cons.1 hnodup).1 (List.map_append ▸ List.mem_append_left _ hmem)
    have hinsert : (insertEntry e.1 e.2 acc ++ es).Perm (e :: acc ++ es) :=
      (insertEntry_perm e.2 hnew).append_right es
    exact (ih _ ((hinsert.map _).nodup_iff.2 hnodup)).trans (hinsert.trans hmove.symm)

theorem findEntry_perm {es es' : List (String × α)} (hperm : es.Perm es')
    (h : (es.map Prod.fst).Nodup) (key : String) : findEntry key es = findEntry key es' := by
  have h' : (es'.map Prod.fst).Nodup := (hperm.map _).nodup_iff.1 h
  by_cases hmem : key ∈ es.map Prod.fst
  · obtain ⟨e, he, rfl⟩ := List.mem_map.1 hmem
    rw [findEntry_of_mem h he, findEntry_of_mem h' (hperm.mem_iff.1 he)]
  · rw [findEntry_eq_none hmem, findEntry_eq_none fun hmem' => hmem ((hperm.map _).mem_iff.2 hmem')]

theorem findEntry_mapValues (f : α → β) (es : List (String × α)) (key : String) :
    findEntry key (es.map fun e => (e.1, f e.2)) = (findEntry key es).map f := by
  induction es with
  | nil => rfl
  | cons e es ih =>
    rw [List.map_cons, findEntry, findEntry, ih]
    split_ifs <;> rfl

theorem insertEntry_mapValues (f : α → β) (key : String) (a : α) (es : List (String × α)) :
    insertEntry key (f a) (es.map fun e => (e.1, f e.2)) =
      (insertEntry key a es).map fun e => (e.1, f e.2) := by
  induction es with
  | nil => rfl
  | cons e es ih =>
    rw [List.map_cons, insertEntry, insertEntry, ih]
    split_ifs <;> rfl

/-- Sorting looks at the keys only. -/
theorem sortEntries_mapValues (f : α → β) (es : List (String × α)) :
    sortEntries (es.map fun e => (e.1, f e.2)) = (sortEntries es).map fun e => (e.1, f e.2) := by
  suffices hfold : ∀ acc : List (String × α),
      (es.map fun e => (e.1, f e.2)).foldl (fun acc e => insertEntry e.1 e.2 acc)
          (acc.map fun e => (e.1, f e.2)) =
        (es.foldl (fun acc e => insertEntry e.1 e.2 acc) acc).map fun e => (e.1, f e.2) from hfold []
  induction es with
  | nil => intro acc; rfl
  | cons e es ih =>
    intro acc
    simp only [List.map_cons, List.foldl_cons, insertEntry_mapValues, ih]

end Entries

namespace Json

open Document (ofValue ofItems ofMembers)

variable {α β κ : Type}

/-! ### Canonical values -/

namespace Value

theorem canonicalItems_eq_map (vs : List Value) : canonicalItems vs = vs.map canonical := by
  induction vs with
  | nil => rfl
  | cons v vs ih => rw [canonicalItems, ih, List.map_cons]

theorem canonicalMembers_eq_map (ms : List (String × Value)) :
    canonicalMembers ms = ms.map fun m => (m.1, m.2.canonical) := by
  induction ms with
  | nil => rfl
  | cons m ms ih => rw [canonicalMembers, ih, List.map_cons]

theorem canonical_ne_null {v : Value} (h : v ≠ .null) : v.canonical ≠ .null := by
  cases v with
  | null => exact absurd rfl h
  | _ => rw [canonical]; exact Value.noConfusion

mutual

/-- A value in canonical order stays as it is. -/
theorem canonical_canonical : ∀ v : Value, v.canonical.canonical = v.canonical
  | .null | .bool _ | .num _ | .str _ => by simp only [canonical]
  | .arr items => by
    rw [canonical, canonical, canonicalItems_canonicalItems]
  | .obj members => by
    have hsorted := canonicalMembers_canonicalMembers members
    rw [canonicalMembers_eq_map] at hsorted
    rw [canonical, canonical, canonicalMembers_eq_map, ← sortEntries_mapValues canonical, hsorted,
      sortEntries_of_increasing (increasing_sortEntries _)]

theorem canonicalItems_canonicalItems :
    ∀ vs : List Value, canonicalItems (canonicalItems vs) = canonicalItems vs
  | [] => by simp only [canonicalItems]
  | v :: vs => by
    rw [canonicalItems, canonicalItems, canonical_canonical, canonicalItems_canonicalItems]

theorem canonicalMembers_canonicalMembers :
    ∀ ms : List (String × Value), canonicalMembers (canonicalMembers ms) = canonicalMembers ms
  | [] => by simp only [canonicalMembers]
  | (k, v) :: ms => by
    rw [canonicalMembers, canonicalMembers, canonical_canonical, canonicalMembers_canonicalMembers]

end

/-- The canonical form of a table lists its entries in some other order. -/
theorem canonical_table [Named κ] (f : α → Value) (t : Table κ α) :
    ∃ es : List (κ × α), es.Perm t.entries ∧
      (table f t).canonical = .obj (es.map fun e => (Named.name e.1, (f e.2).canonical)) := by
  let keyed := t.entries.map fun e => (Named.name e.1, e)
  have hkeys : (keyed.map Prod.fst).Nodup := by
    have hnames : keyed.map Prod.fst = t.keys.map Named.name := by
      simp [keyed, Table.keys_eq_map_entries, Function.comp_def]
    rw [hnames]
    exact t.nodup_keys.map fun a b => Named.name_inj a b
  have hperm := sortEntries_perm hkeys
  have hname : ∀ p ∈ sortEntries keyed, p.1 = Named.name p.2.1 := fun p hp => by
    obtain ⟨e, -, rfl⟩ := List.mem_map.1 (hperm.mem_iff.1 hp)
    rfl
  refine ⟨(sortEntries keyed).map Prod.snd, ?_, ?_⟩
  · have hentries : keyed.map Prod.snd = t.entries := by simp [keyed, Function.comp_def]
    exact hentries ▸ hperm.map Prod.snd
  · have hmembers : (t.entries.map fun e => (Named.name e.1, f e.2)).map
        (fun m => (m.1, m.2.canonical)) = keyed.map fun p => (p.1, (f p.2.2).canonical) := by
      simp [keyed, Function.comp_def]
    have hsort := sortEntries_mapValues (fun e : κ × α => (f e.2).canonical) keyed
    rw [table, canonical, canonicalMembers_eq_map, hmembers, hsort, List.map_map]
    exact congrArg Value.obj (List.map_congr_left fun p hp => by rw [hname p hp]; rfl)

end Value

/-! ### Values that are recovered -/

namespace Reader

/-- The reader makes `a` of the value and of its canonical form, and the numbers of the value survive
being written. -/
structure Recovers (r : Reader α) (v : Value) (a : α) : Prop where
  reads : r.Reads v a
  sorted : r.Reads v.canonical a
  fits : v.Numbers Number.Fits

theorem recovers_string (s : String) : string.Recovers (.str s) s where
  reads := reads_string s
  sorted := by rw [Value.canonical]; exact reads_string s
  fits := by rw [Value.Numbers]; trivial

theorem recovers_boolean (b : Bool) : boolean.Recovers (.bool b) b where
  reads := reads_boolean b
  sorted := by rw [Value.canonical]; exact reads_boolean b
  fits := by rw [Value.Numbers]; trivial

theorem recovers_naturalBelow {n bound : Nat} (want : String) (h : n < bound)
    (hfits : Number.Fits (.int n)) : (naturalBelow bound want).Recovers (.nat n) n where
  reads := reads_naturalBelow want h
  sorted := by rw [Value.nat, Value.canonical]; exact reads_naturalBelow want h
  fits := by rw [Value.nat, Value.Numbers]; exact hfits

theorem recovers_word [Named κ] (k : κ) : word.Recovers (.word k) k where
  reads := reads_word k
  sorted := by rw [Value.word, Value.canonical]; exact reads_word k
  fits := by rw [Value.word, Value.Numbers]; trivial

theorem recovers_null (r : Reader α) : (optional r).Recovers .null none where
  reads := reads_null r
  sorted := by rw [Value.canonical]; exact reads_null r
  fits := by rw [Value.Numbers]; trivial

theorem Recovers.optional {r : Reader α} {v : Value} {a : α} (h : r.Recovers v a)
    (hv : v ≠ .null) : (optional r).Recovers v (some a) where
  reads := h.reads.optional hv
  sorted := h.sorted.optional (Value.canonical_ne_null hv)
  fits := h.fits

/-- Absence is written as nothing and read as absence. -/
theorem recovers_ofOption {r : Reader α} {f : α → Value} {x : Option α}
    (h : ∀ a ∈ x, r.Recovers (f a) a ∧ f a ≠ .null) : (optional r).Recovers (.ofOption f x) x := by
  cases x with
  | none => exact recovers_null r
  | some a => exact (h a rfl).1.optional (h a rfl).2

theorem recovers_list {r : Reader α} {f : α → Value} {as : List α}
    (h : ∀ a ∈ as, r.Recovers (f a) a) : (list r).Recovers (.arr (as.map f)) as where
  reads := reads_list fun a ha => (h a ha).reads
  sorted := by
    rw [Value.canonical, Value.canonicalItems_eq_map, List.map_map]
    exact reads_list fun a ha => (h a ha).sorted
  fits := by
    rw [Value.Numbers, Value.itemNumbers_iff]
    intro v hv
    obtain ⟨a, ha, rfl⟩ := List.mem_map.1 hv
    exact (h a ha).fits

theorem recovers_words [Named κ] (ks : List κ) : (list word).Recovers (.words ks) ks :=
  recovers_list fun k _ => recovers_word k

theorem recovers_table [Named κ] [DecidableEq κ] {r : Reader α} {f : α → Value} {t : Table κ α}
    (h : ∀ k, ∀ a ∈ t.get? k, r.Recovers (f a) a) : (table r).Recovers (.table f t) t where
  reads := reads_table (fun _ _ => Table.mem_entries) fun e he =>
    (h e.1 e.2 (Table.mem_entries.1 he)).reads
  sorted := by
    obtain ⟨es, hperm, hcanonical⟩ := Value.canonical_table f t
    have hes : ∀ k a, (k, a) ∈ es ↔ t.get? k = some a := fun _ _ =>
      hperm.mem_iff.trans Table.mem_entries
    rw [hcanonical]
    exact reads_table (f := fun a => (f a).canonical) hes fun e he =>
      (h e.1 e.2 ((hes e.1 e.2).1 he)).sorted
  fits := by
    rw [Value.table, Value.Numbers, Value.memberNumbers_iff]
    intro m hm
    obtain ⟨e, he, rfl⟩ := List.mem_map.1 hm
    exact (h e.1 e.2 (Table.mem_entries.1 he)).fits

end Reader

/-! ### Members that are recovered -/

namespace Fields

/-- The fields make `a` of the members that `look` finds and of their canonical forms, and the numbers
of the members survive being written. -/
structure Recovers (f : Fields α) (look : String → Option Value) (a : α) : Prop where
  makes : f.Makes look a
  sorted : f.Makes (fun n => (look n).map Value.canonical) a
  fits : ∀ n ∈ f.names, ∀ v ∈ look n, v.Numbers Number.Fits

namespace Recovers

variable {look : String → Option Value} {name : String}

theorem build (a : α) (look : String → Option Value) : (Fields.build a).Recovers look a where
  makes := .build a look
  sorted := .build a _
  fits := by simp

/-- What one more field has to satisfy. -/
theorem field {before : Fields (β → α)} {make : β → α} (h : before.Recovers look make)
    {read : Reader β} {absent short : Option β} {b : β}
    (hb : match look name with
      | some v => read.Recovers v b
      | none => absent = some b) :
    (Fields.field before name read absent short).Recovers look (make b) := by
  have hfits : ∀ v ∈ look name, v.Numbers Number.Fits := fun v hv => by
    rw [Option.mem_def.1 hv] at hb
    exact hb.fits
  refine ⟨⟨make, b, h.makes, rfl, ?_⟩, ⟨make, b, h.sorted, rfl, ?_⟩, fun n hn => ?_⟩
  · cases hv : look name with
    | none => rw [hv] at hb; exact hb
    | some v => rw [hv] at hb; exact hb.reads
  · cases hv : look name with
    | none => rw [hv] at hb; simpa only [hv, Option.map_none] using hb
    | some v => rw [hv] at hb; simpa only [hv, Option.map_some] using hb.sorted
  · rcases List.mem_append.1 hn with hn | hn
    · exact h.fits n hn
    · exact List.mem_singleton.1 hn ▸ hfits

theorem required {before : Fields (β → α)} {make : β → α} (h : before.Recovers look make)
    {read : Reader β} {v : Value} {b : β} (hv : look name = some v) (hb : read.Recovers v b) :
    (before.required name read).Recovers look (make b) :=
  h.field (by rw [hv]; exact hb)

theorem optional {before : Fields (Option β → α)} {make : Option β → α}
    (h : before.Recovers look make) {read : Reader β} {v : Value} {b : Option β}
    (hv : look name = some v) (hb : (Reader.optional read).Recovers v b) :
    (before.optional name read).Recovers look (make b) :=
  h.field (by rw [hv]; exact hb)

theorem defaulted {before : Fields (β → α)} {make : β → α} (h : before.Recovers look make)
    {read : Reader β} {v : Value} {a b : β} (hv : look name = some v) (hb : read.Recovers v b) :
    (before.defaulted name read a).Recovers look (make b) :=
  h.field (by rw [hv]; exact hb)

/-- A member with a default may be left out if it is the default. -/
theorem left_out {before : Fields (β → α)} {make : β → α} (h : before.Recovers look make)
    {read : Reader β} {a : β} (hnone : look name = none) :
    (before.defaulted name read a).Recovers look (make a) :=
  h.field (by rw [hnone])

/-- An optional part is left out if it is absent. -/
theorem unless_none {before : Fields (Option β → α)} {make : Option β → α}
    (h : before.Recovers look make) {read : Reader β} {f : β → Value} {x : Option β}
    (hx : look name = x.map f) (hb : ∀ b ∈ x, read.Recovers (f b) b ∧ f b ≠ .null) :
    (before.defaulted name (Reader.optional read) none).Recovers look (make x) := by
  cases x with
  | none => exact h.left_out hx
  | some b => exact h.defaulted hx ((hb b rfl).1.optional (hb b rfl).2)

end Recovers

end Fields

namespace Reader

/-- **A record is recovered from its members**, in whatever order they stand. -/
theorem recovers_record (name : String) {f : Fields α} {ms : List (String × Value)} {a : α}
    (hnodup : f.names.Nodup) (h : f.Recovers (findEntry · ms) a) (hms : (ms.map Prod.fst).Nodup)
    (hnames : ∀ m ∈ ms, m.1 ∈ f.names) : (record name f).Recovers (.obj ms) a where
  reads := reads_record name hnodup h.makes hms hnames
  sorted := by
    let inner := ms.map fun m => (m.1, m.2.canonical)
    have hinner : (inner.map Prod.fst).Nodup := by simpa [inner, Function.comp_def] using hms
    have hperm : (sortEntries inner).Perm inner := sortEntries_perm hinner
    have hlook : (findEntry · (sortEntries inner)) =
        fun n => (findEntry n ms).map Value.canonical := funext fun n =>
      (findEntry_perm hperm ((hperm.map _).nodup_iff.2 hinner) n).trans
        (findEntry_mapValues Value.canonical ms n)
    rw [Value.canonical, Value.canonicalMembers_eq_map]
    refine reads_record name hnodup (hlook ▸ h.sorted) ((hperm.map _).nodup_iff.2 hinner) ?_
    intro m hm
    obtain ⟨m', hm', rfl⟩ := List.mem_map.1 (hperm.mem_iff.1 hm)
    exact hnames m' hm'
  fits := by
    rw [Value.Numbers, Value.memberNumbers_iff]
    exact fun m hm => h.fits m.1 (hnames m hm) m.2 (findEntry_of_mem hms hm)

end Reader

/-! ### Generic values -/

namespace Value

mutual

/-- Fewer than `depth` containers stand inside one another. -/
def Within (depth : Nat) : Value → Prop
  | .null | .bool _ | .num _ | .str _ => True
  | .arr items => 1 < depth ∧ ItemsWithin (depth - 1) items
  | .obj members => 1 < depth ∧ MembersWithin (depth - 1) members

/-- The same for items. -/
def ItemsWithin (depth : Nat) : List Value → Prop
  | [] => True
  | v :: vs => Within depth v ∧ ItemsWithin depth vs

/-- The same for members. -/
def MembersWithin (depth : Nat) : List (String × Value) → Prop
  | [] => True
  | (_, v) :: ms => Within depth v ∧ MembersWithin depth ms

end

theorem itemsWithin_iff {depth : Nat} {vs : List Value} :
    ItemsWithin depth vs ↔ ∀ v ∈ vs, v.Within depth := by
  induction vs with
  | nil => simp [ItemsWithin]
  | cons v vs ih => simp [ItemsWithin, ih]

end Value

namespace Document

open Value

mutual

/-- **The generic value of a document is the value in canonical order.** -/
theorem toValue_ofValue : ∀ {v : Value} {depth : Nat}, v.Within depth →
    toValue depth (ofValue v) = .ok v.canonical
  | .null, _, _ | .bool _, _, _ | .num _, _, _ | .str _, _, _ => by
    simp only [ofValue, canonical]
    rfl
  | .arr items, depth, h => by
    rw [Within] at h
    rw [ofValue, toValue, if_neg (Nat.not_le.2 h.1)]
    simp only [toItems_ofItems h.2, bind, Except.bind, Close.check, canonical]
    rfl
  | .obj members, depth, h => by
    rw [Within] at h
    rw [ofValue, toValue, if_neg (Nat.not_le.2 h.1)]
    simp only [toMembers_ofMembers h.2, bind, Except.bind, Close.check, canonical]
    rfl

theorem toItems_ofItems : ∀ {vs : List Value} {depth : Nat}, ItemsWithin depth vs →
    toItems depth (ofItems vs) = .ok (canonicalItems vs)
  | [], _, _ => by
    simp only [ofItems, canonicalItems]
    rfl
  | v :: vs, depth, h => by
    rw [ItemsWithin] at h
    rw [ofItems, toItems, toValue_ofValue h.1, toItems_ofItems h.2, canonicalItems]
    rfl

theorem toMembers_ofMembers : ∀ {ms : List (String × Value)} {depth : Nat}, MembersWithin depth ms →
    toMembers depth (ofMembers ms) = .ok (canonicalMembers ms)
  | [], _, _ => by
    simp only [ofMembers, canonicalMembers]
    rfl
  | (k, v) :: ms, depth, h => by
    rw [MembersWithin] at h
    rw [ofMembers, toMembers, toValue_ofValue h.1, toMembers_ofMembers h.2, canonicalMembers]
    rfl

end

end Document

namespace Reader

/-- A value that is not too deep is read as it is, in canonical order. -/
theorem reads_anything {v : Value} (h : v.Within Document.depthLimit) :
    anything.Reads v v.canonical := fun o => by
  rw [anything, anythingInside, Nat.sub_zero, Document.toValue_ofValue h]

theorem Recovers.runValue_canonical {r : Reader α} {v : Value} {a : α} (h : r.Recovers v a) :
    r.runValue v.canonical = .ok a := by
  rw [runValue, Value.canonical_canonical]
  exact h.sorted .value

/-! ### The round trip -/

/-- What is written of `a` is read as `a`: from the text without blanks, from the indented text and from
the generic value; and writing down what was read gives the same texts again. -/
structure RoundTrips (r : Reader α) (toValue : α → Value) (a : α) : Prop where
  compact : r.runText (Utf8.ofString (toValue a).compactText) = .ok a
  pretty : r.runText (Utf8.ofString (toValue a).prettyText) = .ok a
  value : r.runValue (toValue a) = .ok a
  again : ∀ b, r.runText (Utf8.ofString (toValue a).compactText) = .ok b ∨
      r.runText (Utf8.ofString (toValue a).prettyText) = .ok b ∨ r.runValue (toValue a) = .ok b →
    (toValue b).compactText = (toValue a).compactText ∧
      (toValue b).prettyText = (toValue a).prettyText

/-- **A value that is recovered makes the round trip through every form.** -/
theorem Recovers.roundTrips {r : Reader α} {toValue : α → Value} {a : α}
    (h : r.Recovers (toValue a) a) : r.RoundTrips toValue a := by
  have hcompact := runText_compactText h.reads h.fits
  have hpretty := runText_prettyText h.reads h.fits
  have hvalue : r.runValue (toValue a) = .ok a := h.sorted .value
  refine ⟨hcompact, hpretty, hvalue, fun b hb => ?_⟩
  have hsame : b = a := by
    rcases hb with hb | hb | hb
    · exact Except.ok.inj (hb.symm.trans hcompact)
    · exact Except.ok.inj (hb.symm.trans hpretty)
    · exact Except.ok.inj (hb.symm.trans hvalue)
  rw [hsame]
  exact ⟨rfl, rfl⟩

end Reader

end Json

theorem Labels.recovers_toValue (l : Labels) : Labels.reader.Recovers l.toValue l where
  reads := l.reads_toValue
  sorted := by
    have hsorted : sortEntries (l.entries.map fun e => (e.1, Json.Value.str e.2)) =
        l.entries.map fun e => (e.1, Json.Value.str e.2) := by
      rw [sortEntries_mapValues, sortEntries_of_increasing l.increasing]
    have hsame : l.toValue.canonical = l.toValue := by
      simp [Labels.toValue, Json.Value.canonical, Json.Value.canonicalMembers_eq_map,
        Function.comp_def, hsorted]
    rw [hsame]
    exact l.reads_toValue
  fits := by
    rw [Labels.toValue, Json.Value.Numbers, Json.Value.memberNumbers_iff]
    intro m hm
    obtain ⟨e, -, rfl⟩ := List.mem_map.1 hm
    rw [Json.Value.Numbers]
    trivial

end ReviewPanel
