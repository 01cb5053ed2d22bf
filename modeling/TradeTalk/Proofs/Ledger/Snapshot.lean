import Mathlib.Data.List.Nodup
import Mathlib.Data.String.Basic
import TradeTalk.Proofs.Ledger.InRange
import TradeTalk.Proofs.Text.Folding

/-!
# `Proofs.Ledger.Snapshot` — an overview is the ledger at a glance

An overview has one row for each entry of the ledger, in the order of names, and each row can be looked up again by the
name that it shows. Words are shown as they are filed, and metals as they were first spelled; so both rest on one
invariant: the name of an entry is filed where the entry is. It is kept by every update, whatever characters names are
made of, since folding a folded name changes nothing.

The rows are determined by the entries alone. Listed in any other order and sorted by the names shown, they make the same
overview, since no two of them have one name. What one unit of a metal costs is what the ledger would price it by at
that time.

## Contents
- **`Update`**, **`updateAll`**: words defined and quotes recorded, of any names.
- **`Reachable.exists_updates`**: a reachable ledger has come about by updates.
- **`Filed`**, **`Filed.update`**, **`Reachable.filed`**: every entry is filed under its name.
- **`mergeSort_eq_of_perm`**, **`pairwise_lt_mergeSort`**: rows with names of their own have one order.
- **`Lists`**, **`tabulate`**: the entries in any order, and the overview that is made of them.
- **`IsSnapshot`**, **`Filed.isSnapshot`**: an overview has one row for each entry, and can be looked up.
- **`PricesByRow`**, **`Reachable.pricesByRow`**: metals are priced as their rows say.
- **`overview_faithful`**: all of this, of ledgers however they came about.
-/

namespace TradeTalk

open Text (key)

/-! ## Rows in the order of their names -/

section Order

variable {α : Type} (name : α → String) {rows rows' : List α}

/-- Whether one row does not come after another. -/
def notAfter (a b : α) : Bool :=
  (compare (name a) (name b)).isLE

theorem notAfter_iff {a b : α} : notAfter name a b = true ↔ name a ≤ name b := by
  rw [notAfter, Ordering.isLE_iff_ne_gt, compare_gt_iff_gt, not_lt]

theorem pairwise_le_mergeSort (rows : List α) :
    (rows.mergeSort (notAfter name)).Pairwise fun a b => name a ≤ name b := by
  have htrans : ∀ a b c, notAfter name a b = true → notAfter name b c = true → notAfter name a c = true := by
    intro a b c hab hbc
    rw [notAfter_iff] at hab hbc ⊢
    exact hab.trans hbc
  have htotal : ∀ a b, (notAfter name a b || notAfter name b a) = true := by
    intro a b
    rw [Bool.or_eq_true, notAfter_iff, notAfter_iff]
    exact le_total (name a) (name b)
  exact (List.pairwise_mergeSort htrans htotal rows).imp fun h => (notAfter_iff name).mp h

/-- Rows with names of their own are strictly in order. -/
theorem pairwise_lt_mergeSort (hnames : (rows.map name).Nodup) :
    (rows.mergeSort (notAfter name)).Pairwise fun a b => name a < name b := by
  have hnames' : ((rows.mergeSort (notAfter name)).map name).Nodup :=
    ((List.mergeSort_perm rows (notAfter name)).map name).nodup_iff.mpr hnames
  exact ((pairwise_le_mergeSort name rows).and (List.pairwise_map.mp hnames')).imp fun h => lt_of_le_of_ne h.1 h.2

/-- **Rows with names of their own have one order**, whatever order they are sorted from. -/
theorem mergeSort_eq_of_perm (hnames : (rows.map name).Nodup) (h : rows'.Perm rows) :
    rows'.mergeSort (notAfter name) = rows.mergeSort (notAfter name) := by
  have hnames' : (rows'.map name).Nodup := (h.map name).nodup_iff.mpr hnames
  have hperm : (rows'.mergeSort (notAfter name)).Perm (rows.mergeSort (notAfter name)) :=
    (List.mergeSort_perm rows' _).trans (h.trans (List.mergeSort_perm rows _).symm)
  exact hperm.eq_of_pairwise (fun a b _ _ hab hba => absurd hba (lt_asymm hab)) (pairwise_lt_mergeSort name hnames')
    (pairwise_lt_mergeSort name hnames)

end Order

namespace Ledger

variable {l : Ledger}

/-! ## Ledgers of any names -/

/-- One update of a ledger: a word is mapped to what a character writes, or a metal gets a quote. -/
inductive Update where
  | define (word : String) (symbol : Char)
  | record (metal : String) (quote : Quote)

/-- The ledger after an update. A character that writes no digit changes nothing. -/
def update (l : Ledger) : Update → Ledger
  | .define word symbol =>
    match l.assign? word symbol with
    | .ok defined => defined
    | .error _ => l
  | .record metal quote => l.record metal quote

/-- The ledger after some updates. -/
def updateAll (l : Ledger) (updates : List Update) : Ledger :=
  updates.foldl update l

theorem updateAll_append (l : Ledger) (updates more : List Update) :
    l.updateAll (updates ++ more) = (l.updateAll updates).updateAll more :=
  List.foldl_append

/-- Words that are all accepted, one after the other, are as many updates. -/
theorem updateAll_define_of_foldlM {l l' : Ledger} {words : Phrase} {symbol : Char}
    (h : words.foldlM (fun l word => l.assign? word symbol) l = .ok l') :
    l.updateAll (words.map (.define · symbol)) = l' := by
  induction words generalizing l with
  | nil => exact Except.ok.inj h
  | cons word words ih =>
    rw [List.foldlM_cons] at h
    cases hword : l.assign? word symbol with
    | error f =>
      rw [hword] at h
      contradiction
    | ok defined =>
      rw [hword] at h
      have hupdate : l.update (.define word symbol) = defined := by rw [update, hword]
      rw [List.map_cons, updateAll, List.foldl_cons, hupdate]
      exact ih h

/-- **A reachable ledger has come about by updates.** A fact about words defines each of them by the letter of its digit,
    and no letter is refused. -/
theorem Reachable.exists_updates (h : l.Reachable) : ∃ updates, Ledger.empty.updateAll updates = l := by
  induction h with
  | empty => exact ⟨[], rfl⟩
  | @tell l line _ ih =>
    obtain ⟨updates, hupdates⟩ := ih
    rw [Ledger.tell]
    rcases l.respond_snd (Request.ofLine (dropLineEnds line)) with
      he | ⟨words, digit, -, he⟩ | ⟨phrase, metal, amount, -, -, he⟩
    · exact ⟨updates, hupdates.trans he.symm⟩
    · refine ⟨updates ++ words.map (.define · digit.letter), ?_⟩
      rw [updateAll_append, hupdates, he]
      exact updateAll_define_of_foldlM (l.foldlM_assign?_letter words digit)
    · refine ⟨updates ++ [.record metal ⟨phrase, amount⟩], ?_⟩
      rw [updateAll_append, hupdates, he]
      rfl

/-- Every entry is filed under its name. -/
structure Filed (l : Ledger) : Prop where
  word : ∀ {k : String} {d : Digit}, l.digits[k]? = some d → key k = k
  metal : ∀ {k : String} {listing : Listing}, l.metals[k]? = some listing → key listing.name = k

theorem filed_empty : empty.Filed where
  word := by simp [empty]
  metal := by simp [empty]

theorem Filed.assign (h : l.Filed) (word : String) (digit : Digit) : (l.assign word digit).Filed where
  word := by
    intro k d hk
    rw [Ledger.assign, Std.ExtTreeMap.getElem?_insert] at hk
    split at hk
    · -- A new word is filed under its key, and that is its own key.
      rename_i he
      rw [← Std.compare_eq_iff_eq.mp he, Text.key_key]
    · exact h.word hk
  metal := h.metal

theorem Filed.record (h : l.Filed) (metal : String) (quote : Quote) : (l.record metal quote).Filed where
  word := h.word
  metal := by
    intro k listing hk
    rw [getElem?_metals_record] at hk
    split at hk
    · -- An earlier spelling stays; its key is the same.
      rename_i he
      rw [← Option.some.inj hk]
      cases hold : l.metals[k]? with
      | none => exact he
      | some old =>
        have hname := h.metal hold
        exact hname
    · exact h.metal hk

/-- **Every update keeps entries filed under their names.** -/
theorem Filed.update (h : l.Filed) (u : Update) : (l.update u).Filed := by
  cases u with
  | define word symbol =>
    rw [Ledger.update, assign?]
    cases Digit.ofChar? symbol with
    | none => exact h
    | some digit => exact h.assign word digit
  | record metal quote => exact h.record metal quote

theorem Filed.updateAll (h : l.Filed) (updates : List Update) : (l.updateAll updates).Filed := by
  induction updates generalizing l with
  | nil => exact h
  | cons u updates ih => exact ih (h.update u)

/-- The entries of a reachable ledger are filed under their names, too. -/
theorem Reachable.filed (h : l.Reachable) : l.Filed := by
  obtain ⟨updates, rfl⟩ := h.exists_updates
  exact filed_empty.updateAll updates

/-! ## The entries in any order -/

/-- A list has each entry of a table once. -/
structure Lists {α : Type} (entries : List (String × α)) (table : Std.ExtTreeMap String α) : Prop where
  once : (entries.map Prod.fst).Nodup
  each : ∀ (k : String) (a : α), (k, a) ∈ entries ↔ table[k]? = some a

theorem lists_toList {α : Type} (table : Std.ExtTreeMap String α) : Lists table.toList table where
  once := by
    rw [Std.ExtTreeMap.map_fst_toList_eq_keys]
    exact Std.ExtTreeMap.nodup_keys
  each _ _ := Std.ExtTreeMap.mem_toList_iff_getElem?_eq_some

/-- Two lists of the entries differ in their order only. -/
theorem Lists.perm {α : Type} {entries entries' : List (String × α)} {table : Std.ExtTreeMap String α}
    (h : Lists entries table) (h' : Lists entries' table) : entries.Perm entries' := by
  rw [List.perm_ext_iff_of_nodup (h.once.of_map _) (h'.once.of_map _)]
  intro ⟨k, a⟩
  rw [h.each, h'.each]

/-- The overview that is made of entries in any order: a row for each, sorted by the names shown. -/
def tabulate (l : Ledger) (words : List (String × Digit)) (metals : List (String × Listing)) : Overview where
  words := (words.map fun (word, digit) => WordRow.mk word digit.letter).mergeSort (notAfter WordRow.word)
  metals := (metals.map fun (_, listing) => l.metalRow listing).mergeSort (notAfter MetalRow.metal)

/-- The rows of words are already in order. -/
theorem pairwise_words (l : Ledger) : l.overview.words.Pairwise fun a b => a.word < b.word := by
  rw [overview, List.pairwise_map]
  exact (Std.ExtTreeMap.ordered_keys_toList).imp fun h => compare_lt_iff_lt.mp h

theorem map_word_overview (l : Ledger) : l.overview.words.map WordRow.word = l.digits.keys := by
  rw [overview, List.map_map, ← Std.ExtTreeMap.map_fst_toList_eq_keys]
  rfl

/-- The names shown of metals are filed where their entries are. -/
theorem Filed.map_key_name (h : l.Filed) :
    (l.metals.toList.map fun (_, listing) => l.metalRow listing).map (fun row => key row.metal) = l.metals.keys := by
  rw [List.map_map, ← Std.ExtTreeMap.map_fst_toList_eq_keys]
  apply List.map_congr_left
  intro ⟨k, listing⟩ hmem
  exact h.metal (Std.ExtTreeMap.mem_toList_iff_getElem?_eq_some.mp hmem)

/-- So no two metals are shown by one name. -/
theorem Filed.nodup_names (h : l.Filed) :
    ((l.metals.toList.map fun (_, listing) => l.metalRow listing).map MetalRow.metal).Nodup := by
  apply List.Nodup.of_map key
  rw [List.map_map]
  exact h.map_key_name ▸ Std.ExtTreeMap.nodup_keys

/-- **The order in which the entries are listed does not matter.** -/
theorem Filed.tabulate_eq (h : l.Filed) {words : List (String × Digit)} {metals : List (String × Listing)}
    (hwords : Lists words l.digits) (hmetals : Lists metals l.metals) : l.tabulate words metals = l.overview := by
  have hw : (l.tabulate words metals).words = l.overview.words := by
    have hnames : (l.overview.words.map WordRow.word).Nodup := by
      rw [map_word_overview]
      exact Std.ExtTreeMap.nodup_keys
    have hsorted : l.overview.words.mergeSort (notAfter WordRow.word) = l.overview.words :=
      List.mergeSort_of_pairwise (l.pairwise_words.imp fun hlt => (notAfter_iff WordRow.word).mpr hlt.le)
    rw [tabulate, ← hsorted]
    exact mergeSort_eq_of_perm WordRow.word hnames ((hwords.perm (lists_toList _)).map _)
  have hm : (l.tabulate words metals).metals = l.overview.metals :=
    mergeSort_eq_of_perm MetalRow.metal h.nodup_names ((hmetals.perm (lists_toList _)).map _)
  exact congrArg₂ Overview.mk hw hm

/-! ## Looking the rows up -/

/-- An overview of a ledger: one row for each entry, in the order of the names shown, and the same rows in whatever order
    the entries of an equal ledger are listed. Each row can be looked up by its name. -/
structure IsSnapshot (l : Ledger) (view : Overview) : Prop where
  wordsInOrder : view.words.Pairwise fun a b => a.word < b.word
  metalsInOrder : view.metals.Pairwise fun a b => a.metal < b.metal
  wordsOnce : (view.words.map WordRow.word).Perm l.digits.keys
  metalsOnce : (view.metals.map fun row => key row.metal).Perm l.metals.keys
  canonical : ∀ (m : Ledger) (words : List (String × Digit)) (metals : List (String × Listing)),
    (∀ k : String, m.digits[k]? = l.digits[k]?) → (∀ k : String, m.metals[k]? = l.metals[k]?) →
      Lists words m.digits → Lists metals m.metals → m.tabulate words metals = view
  word : ∀ row ∈ view.words, (l.digit? row.word).map Digit.letter = some row.symbol
  metal : ∀ row ∈ view.metals, ∃ quote, l.quote? row.metal = some quote ∧ quote.phrase.text = row.phrase ∧
    quote.amount = row.amount
  unitPrice : ∀ row ∈ view.metals, ∀ unit, row.unitPrice = some unit ↔ l.unitPrice row.metal = .ok unit

/-- A metal is found by the name that its row shows. -/
theorem Filed.quote?_metalRow (h : l.Filed) {k : String} {listing : Listing} (hk : l.metals[k]? = some listing) :
    l.quote? (l.metalRow listing).metal = some listing.quote := by
  show l.metals[key listing.name]?.map Listing.quote = some listing.quote
  rw [h.metal hk, hk]
  rfl

theorem unitPrice_metalRow_iff (l : Ledger) (listing : Listing) (unit : Decimal) :
    (l.metalRow listing).unitPrice = some unit ↔ l.unitPrice (l.metalRow listing).metal = .ok unit := by
  show (l.unitPrice listing.name).toOption = some unit ↔ l.unitPrice listing.name = .ok unit
  cases l.unitPrice listing.name <;> simp [Except.toOption]

/-- **An overview is a snapshot**, if every entry is filed under its name. -/
theorem Filed.isSnapshot (h : l.Filed) : l.IsSnapshot l.overview where
  wordsInOrder := l.pairwise_words
  metalsInOrder := pairwise_lt_mergeSort MetalRow.metal h.nodup_names
  wordsOnce := by rw [map_word_overview]
  metalsOnce := by
    rw [← h.map_key_name]
    exact (List.mergeSort_perm _ _).map _
  canonical := by
    intro m words metals hdigits hentries hwords hmetals
    obtain rfl : m = l := Ledger.ext (Std.ExtTreeMap.ext_getElem? hdigits) (Std.ExtTreeMap.ext_getElem? hentries)
    exact h.tabulate_eq hwords hmetals
  word := by
    intro row hrow
    obtain ⟨k, d, hk, rfl⟩ := mem_overview_words_iff.mp hrow
    show (l.digits[key k]?).map Digit.letter = some d.letter
    rw [h.word hk, hk]
    rfl
  metal := by
    intro row hrow
    obtain ⟨k, listing, hk, rfl⟩ := mem_overview_metals_iff.mp hrow
    exact ⟨listing.quote, h.quote?_metalRow hk, rfl, rfl⟩
  unitPrice := by
    intro row hrow unit
    obtain ⟨k, listing, -, rfl⟩ := mem_overview_metals_iff.mp hrow
    exact l.unitPrice_metalRow_iff listing unit

/-! ## Prices and rows -/

/-- A ledger prices metals as the rows of an overview say: a question about so much of a metal as a phrase is worth is
    answered by the product with the unit price of its row, and by no price if the row has none. -/
def PricesByRow (l : Ledger) (view : Overview) : Prop :=
  ∀ row ∈ view.metals, ∀ (line : String) (phrase : Phrase) (metal : String) (quantity : Nat),
    Request.ofLine (dropLineEnds line) = .priceQuestion phrase metal → key metal = key row.metal →
    l.worth phrase = .ok quantity →
      (∀ unit, row.unitPrice = some unit → ∃ cost, unit.times? quantity = some cost ∧
        (l.tell line).1 = .ok (.price phrase.text metal cost)) ∧
      (row.unitPrice = none → ∀ p m cost, (l.tell line).1 ≠ .ok (.price p m cost))

/-- A unit price of a reachable ledger can be multiplied by any number that a numeral can write. -/
theorem Reachable.exists_times? (h : l.Reachable) {metal : String} {unit : Decimal} (hunit : l.unitPrice metal = .ok unit)
    {n : Nat} (hn : n ≤ Numeral.largest) : ∃ cost, unit.times? n = some cost := by
  cases hquote : l.quote? metal with
  | none => simp [unitPrice, hquote] at hunit
  | some quote =>
    cases hq : l.worth quote.phrase with
    | error f => simp [unitPrice, hquote, unitPriceBy_error hq] at hunit
    | ok q =>
      obtain ⟨unit', -, hby, htimes⟩ := (h.inRange hquote).unitPriceBy hq
      simp only [unitPrice, hquote, hby, Except.ok.injEq] at hunit
      exact hunit ▸ htimes n hn

/-- **A reachable ledger prices metals as its overview says.** -/
theorem Reachable.pricesByRow (h : l.Reachable) : l.PricesByRow l.overview := by
  intro row hrow line phrase metal quantity hline hkey hworth
  have hrowPrice := h.filed.isSnapshot.unitPrice row hrow
  -- The spelling of the question does not matter.
  obtain ⟨quote, hquote, -⟩ := h.filed.isSnapshot.metal row hrow
  have hquote' : l.quote? metal = l.quote? row.metal := by rw [quote?, quote?, hkey]
  have hunitPrice : l.unitPrice metal = l.unitPrice row.metal := by rw [unitPrice, unitPrice, hquote', hquote]
  rw [Ledger.tell, hline]
  constructor
  · intro unit hunit
    have hunit' := (hrowPrice unit).mp hunit
    obtain ⟨cost, hcost⟩ := h.exists_times? hunit' (worth_le_largest hworth)
    refine ⟨cost, hcost, ?_⟩
    simp only [respond, price, hworth, hunitPrice, hunit', hcost, settle]
  · intro hnone p m cost hanswer
    cases hunit : l.unitPrice row.metal with
    | ok unit =>
      have hsome := (hrowPrice unit).mpr hunit
      exact Option.some_ne_none unit (hsome.symm.trans hnone)
    | error f =>
      simp only [respond, price, hworth, hunitPrice, hunit] at hanswer
      cases f <;> simp [settle] at hanswer

/-- **An overview is faithful.** Whatever words have been defined and whatever quotes recorded, of any characters, the
    overview has one row for each entry, in strict order of the names shown, whatever the order of the entries; each row
    is found by its name, and has a unit price exactly if the ledger has. A reachable ledger prices metals by it. -/
theorem overview_faithful :
    (∀ updates, (empty.updateAll updates).IsSnapshot (empty.updateAll updates).overview) ∧
      ∀ l : Ledger, l.Reachable → l.IsSnapshot l.overview ∧ l.PricesByRow l.overview :=
  ⟨fun updates => (filed_empty.updateAll updates).isSnapshot, fun _ h => ⟨h.filed.isSnapshot, h.pricesByRow⟩⟩

/-- A word whose last letter is folded to a final sigma, and a character that writes no digit. -/
def inGreek : List Update :=
  [.define "ΟΔΟΣ" 'x', .define "ΟΔΟΣ" '?']

/-- A ledger with one word and one metal. -/
def knowsSilver : Ledger :=
  (empty.tellAll ["glob is I", "glob glob Silver is 34 Credits"]).2

/-- The Greek word is found as its row shows it, and the metal is priced as its row says. -/
theorem overview_faithful_silver :
    ((empty.updateAll inGreek).digit? "οδος").map Digit.letter = some 'X' ∧
      knowsSilver.Reachable ∧
      MetalRow.mk "Silver" "glob glob" ⟨false, 34, 0, by decide, by decide⟩
        (some ⟨false, 17, 0, by decide, by decide⟩) ∈ knowsSilver.overview.metals ∧
      (knowsSilver.tell "how many Credits is glob glob glob SILVER ?").1 =
        .ok (.price "glob glob glob" "SILVER" ⟨false, 51, 0, by decide, by decide⟩) := by
  have hword : WordRow.mk "οδος" 'X' ∈ (empty.updateAll inGreek).overview.words :=
    mem_overview_words_iff.mpr ⟨"οδος", .ten, by decide +kernel, rfl⟩
  have hreach : knowsSilver.Reachable := reachable_iff.mpr ⟨_, rfl⟩
  have hmetal : MetalRow.mk "Silver" "glob glob" ⟨false, 34, 0, by decide, by decide⟩
      (some ⟨false, 17, 0, by decide, by decide⟩) ∈ knowsSilver.overview.metals :=
    mem_overview_metals_iff.mpr
      ⟨"silver", ⟨"Silver", ⟨["glob", "glob"], ⟨false, 34, 0, by decide, by decide⟩⟩⟩, by decide +kernel,
        by decide +kernel⟩
  obtain ⟨hsnapshot, hreachable⟩ := overview_faithful
  obtain ⟨-, hprices⟩ := hreachable knowsSilver hreach
  obtain ⟨hpriced, -⟩ := hprices _ hmetal "how many Credits is glob glob glob SILVER ?" ["glob", "glob", "glob"]
    "SILVER" 3 (by decide +kernel) (by decide +kernel) (by decide +kernel)
  obtain ⟨cost, hcost, hanswer⟩ := hpriced _ rfl
  have hproduct : Decimal.times? ⟨false, 17, 0, by decide, by decide⟩ 3 =
      some ⟨false, 51, 0, by decide, by decide⟩ := by decide +kernel
  obtain rfl := Option.some.inj (hcost.symm.trans hproduct)
  have hfound := (hsnapshot inGreek).word _ hword
  exact ⟨hfound, hreach, hmetal, hanswer⟩

end Ledger

end TradeTalk
