import Mathlib.Data.List.Forall2
import Mathlib.Order.WellFounded
import CandleScript.Failure
import CandleScript.Proofs.Candle.Order
import CandleScript.Proofs.Candle.Table

namespace CandleScript

def Bar.number (bar : Bar) : Candle.Column → Float
  | .opening => bar.opening
  | .high => bar.high
  | .low => bar.low
  | .close => bar.close
  | .volume => bar.volume

namespace Candle

section

variable (fields : List String)

-- The first field is a day.
def HoldsDate (date : Date) : Prop :=
  ∃ raw, fields[0]? = some raw ∧ Date.read (Text.trimChars raw.toList) = .ok date

-- The field of a column is a finite number.
def HoldsNumber (column : Column) (x : Float) : Prop :=
  ∃ raw, fields[column.index]? = some raw ∧
    Number.read (Text.trimChars raw.toList) = .ok x ∧ x.isFinite = true

-- The fields say what a bar says.
structure Holds (bar : Bar) : Prop where
  date : HoldsDate fields bar.date
  number : ∀ column, HoldsNumber fields column (bar.number column)

-- Why the first field is no day.
inductive LacksDate : String → Prop
  | missing (h : fields[0]? = none) : LacksDate "missing date column"
  | invalid {raw : String} {fault : Date.Fault} (hraw : fields[0]? = some raw)
      (hread : Date.read (Text.trimChars raw.toList) = .error fault) :
      LacksDate s!"invalid date '{raw}': {fault.message}"

-- Why the field of a column is no finite number.
inductive LacksNumber (column : Column) : String → Prop
  | missing (h : fields[column.index]? = none) :
      LacksNumber column s!"missing {column.name} column"
  | invalid {raw : String} {fault : Number.ReadError} (hraw : fields[column.index]? = some raw)
      (hread : Number.read (Text.trimChars raw.toList) = .error fault) :
      LacksNumber column s!"invalid {column.name} value '{raw}': {fault.message}"
  | notFinite {raw : String} {x : Float} (hraw : fields[column.index]? = some raw)
      (hread : Number.read (Text.trimChars raw.toList) = .ok x) (hx : ¬x.isFinite = true) :
      LacksNumber column s!"{column.name} must be finite"

-- Why the fields make no bar: the first of them, from the left, that is not
-- what it has to be.
inductive Lacks : String → Prop
  | date {reason : String} (h : LacksDate fields reason) : Lacks reason
  | number {column : Column} {reason : String} {date : Date} (hdate : HoldsDate fields date)
      (hearlier : ∀ earlier : Column, earlier.index < column.index →
        ∃ x, HoldsNumber fields earlier x)
      (h : LacksNumber fields column reason) : Lacks reason

end

section

variable {fields : List String} {date : Date} {column : Column} {x : Float} {flaw : Flaw} {bar : Bar}

theorem dateOf_of_holds (h : HoldsDate fields date) : dateOf fields = .ok date := by
  obtain ⟨raw, hraw, hread⟩ := h
  simp only [dateOf, hraw, hread]

theorem numberOf_of_holds (h : HoldsNumber fields column x) : numberOf fields column = .ok x := by
  obtain ⟨raw, hraw, hread, hfinite⟩ := h
  simp only [numberOf, hraw, hread, hfinite, if_true]

theorem dateOf_holds_or_lacks (fields : List String) :
    (∃ date, dateOf fields = .ok date ∧ HoldsDate fields date) ∨
      ∃ flaw, dateOf fields = .error flaw ∧ LacksDate fields flaw.message := by
  rw [dateOf]
  split
  · rename_i hraw
    exact .inr ⟨_, rfl, .missing hraw⟩
  · rename_i raw hraw
    split
    · rename_i date hread
      exact .inl ⟨date, rfl, raw, hraw, hread⟩
    · rename_i fault hread
      exact .inr ⟨_, rfl, .invalid hraw hread⟩

theorem numberOf_holds_or_lacks (fields : List String) (column : Column) :
    (∃ x, numberOf fields column = .ok x ∧ HoldsNumber fields column x) ∨
      ∃ flaw, numberOf fields column = .error flaw ∧ LacksNumber fields column flaw.message := by
  rw [numberOf]
  split
  · rename_i hraw
    exact .inr ⟨_, rfl, .missing hraw⟩
  · rename_i raw hraw
    split
    · rename_i x hread
      split
      · rename_i hfinite
        exact .inl ⟨x, rfl, raw, hraw, hread, hfinite⟩
      · rename_i hinfinite
        exact .inr ⟨_, rfl, .notFinite hraw hread hinfinite⟩
    · rename_i fault hread
      exact .inr ⟨_, rfl, .invalid hraw hread⟩

theorem barOf_of_holds (h : Holds fields bar) : barOf fields = .ok bar := by
  have hnumber (column : Column) : numberOf fields column = .ok (bar.number column) :=
    numberOf_of_holds (h.number column)
  rw [barOf, dateOf_of_holds h.date, hnumber, hnumber, hnumber, hnumber, hnumber]
  rfl

-- Of the columns that hold no finite number, the one that is judged first.
theorem exists_first_flaw (h : ¬∀ column, ∃ x, HoldsNumber fields column x) :
    ∃ column flaw, numberOf fields column = .error flaw ∧
      LacksNumber fields column flaw.message ∧
      ∀ earlier : Column, earlier.index < column.index → ∃ x, HoldsNumber fields earlier x := by
  obtain ⟨column, hcolumn, hleast⟩ := (measure Column.index).wf.has_min
    {column | ¬∃ x, HoldsNumber fields column x} (not_forall.mp h)
  rcases numberOf_holds_or_lacks fields column with ⟨x, -, hx⟩ | ⟨flaw, hflaw, hlacks⟩
  · exact absurd ⟨x, hx⟩ hcolumn
  · refine ⟨column, flaw, hflaw, hlacks, fun earlier hless => ?_⟩
    exact not_not.mp fun hearlier => hleast earlier hearlier hless

theorem barOf_of_flaw (hdate : HoldsDate fields date)
    (hearlier : ∀ earlier : Column, earlier.index < column.index →
      ∃ x, HoldsNumber fields earlier x)
    (hflaw : numberOf fields column = .error flaw) : barOf fields = .error flaw := by
  have hvalue (earlier : Column) (hless : earlier.index < column.index) :
      ∃ x, numberOf fields earlier = .ok x :=
    (hearlier earlier hless).imp fun _ => numberOf_of_holds
  rw [barOf, dateOf_of_holds hdate]
  cases column with
  | opening =>
      rw [hflaw]
      rfl
  | high =>
      obtain ⟨_, hopening⟩ := hvalue .opening (by decide)
      rw [hopening, hflaw]
      rfl
  | low =>
      obtain ⟨_, hopening⟩ := hvalue .opening (by decide)
      obtain ⟨_, hhigh⟩ := hvalue .high (by decide)
      rw [hopening, hhigh, hflaw]
      rfl
  | close =>
      obtain ⟨_, hopening⟩ := hvalue .opening (by decide)
      obtain ⟨_, hhigh⟩ := hvalue .high (by decide)
      obtain ⟨_, hlow⟩ := hvalue .low (by decide)
      rw [hopening, hhigh, hlow, hflaw]
      rfl
  | volume =>
      obtain ⟨_, hopening⟩ := hvalue .opening (by decide)
      obtain ⟨_, hhigh⟩ := hvalue .high (by decide)
      obtain ⟨_, hlow⟩ := hvalue .low (by decide)
      obtain ⟨_, hclose⟩ := hvalue .close (by decide)
      rw [hopening, hhigh, hlow, hclose, hflaw]
      rfl

-- The fields of a row are a bar, or the first of them that is at fault is named.
theorem barOf_holds_or_lacks (fields : List String) :
    (∃ bar, barOf fields = .ok bar ∧ Holds fields bar) ∨
      ∃ flaw, barOf fields = .error flaw ∧ Lacks fields flaw.message := by
  rcases dateOf_holds_or_lacks fields with ⟨date, -, hdate⟩ | ⟨flaw, hflaw, hlacks⟩
  · by_cases hall : ∀ column, ∃ x, HoldsNumber fields column x
    · choose number hnumber using hall
      have hholds : Holds fields ⟨date, number .opening, number .high, number .low,
          number .close, number .volume⟩ := by
        refine ⟨hdate, fun column => ?_⟩
        cases column <;> exact hnumber _
      exact .inl ⟨_, barOf_of_holds hholds, hholds⟩
    · obtain ⟨column, flaw, hflaw, hlacks, hearlier⟩ := exists_first_flaw hall
      exact .inr ⟨flaw, barOf_of_flaw hdate hearlier hflaw, .number hdate hearlier hlacks⟩
  · refine .inr ⟨flaw, ?_, .date hlacks⟩
    rw [barOf, hflaw]
    rfl

end

-- A record that the reader of a text yields, as a bar.
def Carries (record : Except Table.Uneven Table.Row) (bar : Bar) : Prop :=
  ∃ row, record = .ok row ∧ Holds row.fields bar

-- What is said against a record of a text: the reader's own words, or a line and
-- what is at fault. The line that is named is not the one on which the record
-- stands, but one in front of it, if the reader skips line feeds before the
-- record.
inductive Blames (content : String) : Except Table.Uneven Table.Row → String → Prop
  | uneven (e : Table.Uneven) : Blames content (.error e) s!"CSV parse error: {e.message}"
  | flawed {row : Table.Row} {line lag : Nat} {reason : String}
      (hstands : Table.StandsOn content row line lag) (h : Lacks row.fields reason) :
      Blames content (.ok row) s!"line {line - lag}: {reason}"

section

variable {content : String} {record : Except Table.Uneven Table.Row} {bar : Bar} {e : LoadError}

theorem barOfRecord_of_carries (h : Carries record bar) : barOfRecord record = .ok bar := by
  obtain ⟨row, rfl, hholds⟩ := h
  rw [barOfRecord, barOf_of_holds hholds]

theorem carries_of_barOfRecord (h : barOfRecord record = .ok bar) : Carries record bar := by
  cases record with
  | error e => cases h
  | ok row =>
      rw [barOfRecord] at h
      rcases barOf_holds_or_lacks row.fields with ⟨found, hfound, hholds⟩ | ⟨flaw, hflaw, -⟩
      · rw [hfound] at h
        cases h
        exact ⟨row, rfl, hholds⟩
      · rw [hflaw] at h
        cases h

theorem blames_of_barOfRecord (hmem : record ∈ Table.records content)
    (h : barOfRecord record = .error e) : Blames content record e.message := by
  cases record with
  | error uneven =>
      cases h
      exact .uneven uneven
  | ok row =>
      rw [barOfRecord] at h
      rcases barOf_holds_or_lacks row.fields with ⟨found, hfound, -⟩ | ⟨flaw, hflaw, hlacks⟩
      · rw [hfound] at h
        cases h
      · rw [hflaw] at h
        cases h
        obtain ⟨line, lag, hstands⟩ :=
          Table.exists_standsOn_of_mem_rows (Table.mem_rows_of_mem_records hmem)
        have hflawed := Blames.flawed hstands hlacks
        rw [← hstands.line_start] at hflawed
        exact hflawed

theorem mapM_of_carries {records : List (Except Table.Uneven Table.Row)} {bars : List Bar}
    (h : List.Forall₂ Carries records bars) : records.mapM barOfRecord = .ok bars := by
  induction h with
  | nil => rfl
  | cons hcarries _ ih =>
      rw [List.mapM_cons, barOfRecord_of_carries hcarries, ih]
      rfl

theorem forall_carries {records : List (Except Table.Uneven Table.Row)} {bars : List Bar}
    (h : List.Forall₂ Carries records bars) : ∀ record ∈ records, ∃ bar, Carries record bar := by
  have hboth : List.Forall₂ (fun record bar => (∃ bar, Carries record bar) ∧ Carries record bar)
      records bars :=
    h.imp fun _ bar hcarries => ⟨⟨bar, hcarries⟩, hcarries⟩
  exact ((List.forall₂_and_left _ _).mp hboth).1

-- Induction on the records: they are all bars, or there is a first one that is not.
theorem mapM_barOfRecord (records : List (Except Table.Uneven Table.Row)) :
    (∃ bars, records.mapM barOfRecord = .ok bars ∧ List.Forall₂ Carries records bars) ∨
      ∃ front record rest e, records = front ++ record :: rest ∧
        (∀ earlier ∈ front, ∃ bar, Carries earlier bar) ∧ barOfRecord record = .error e ∧
        records.mapM barOfRecord = .error e := by
  induction records with
  | nil => exact .inl ⟨[], rfl, .nil⟩
  | cons record rest ih =>
      rw [List.mapM_cons]
      cases hrecord : barOfRecord record with
      | error e => exact .inr ⟨[], record, rest, e, rfl, nofun, hrecord, rfl⟩
      | ok bar =>
          have hcarries := carries_of_barOfRecord hrecord
          rcases ih with ⟨bars, hbars, hall⟩ | ⟨front, blamed, rest, e, rfl, hfront, hblamed, he⟩
          · exact .inl ⟨bar :: bars, by rw [hbars]; rfl, .cons hcarries hall⟩
          · refine .inr ⟨record :: front, blamed, rest, e, rfl, ?_, hblamed, by rw [he]; rfl⟩
            exact List.forall_mem_cons.mpr ⟨⟨bar, hcarries⟩, hfront⟩

end

-- A table of bars is loaded as one bar for each record, in the order of their
-- days, where those of one day keep their order. Every other table is refused
-- for the first record that is no bar, and nothing of it is loaded.
theorem load_records (content : String) :
    ((∀ record ∈ Table.records content, ∃ bar, Carries record bar) →
      ∃ bars sorted, List.Forall₂ Carries (Table.records content) bars ∧
        load content = .ok sorted ∧ sorted.Perm bars ∧
        sorted.Pairwise (fun a b => a.date ≤ b.date) ∧
        ∀ date, sorted.filter (fun bar => bar.date = date) =
          bars.filter fun bar => bar.date = date) ∧
    (¬(∀ record ∈ Table.records content, ∃ bar, Carries record bar) →
      ∃ front record rest e reason, Table.records content = front ++ record :: rest ∧
        (∀ earlier ∈ front, ∃ bar, Carries earlier bar) ∧ Blames content record reason ∧
        load content = .error e ∧
        (Failure.data (.candles e)).message = s!"data error: {reason}") := by
  rcases mapM_barOfRecord (Table.records content) with
    ⟨bars, hbars, hall⟩ | ⟨front, record, rest, e, hrecords, hfront, hrecord, he⟩
  · constructor
    · intro _
      refine ⟨bars, bars.mergeSort Bar.isOrdered, hall, ?_, List.mergeSort_perm _ _,
        Bar.pairwise_mergeSort bars, Bar.filter_mergeSort bars⟩
      rw [load, hbars]
      rfl
    · intro hnot
      exact absurd (forall_carries hall) hnot
  · have hmem : record ∈ Table.records content := by
      rw [hrecords]
      exact List.mem_append_right _ List.mem_cons_self
    constructor
    · intro hcarry
      obtain ⟨bar, hcarries⟩ := hcarry record hmem
      cases (barOfRecord_of_carries hcarries).symm.trans hrecord
    · intro _
      refine ⟨front, record, rest, e, e.message, hrecords, hfront,
        blames_of_barOfRecord hmem hrecord, ?_, rfl⟩
      rw [load, he]
      rfl

-- A bar that does not move.
def still (date : Date) (x : Float) : Bar := ⟨date, x, x, x, x, x⟩

-- Two bars of one day around one of the day before.
def unordered : String :=
  "date,open,high,low,close,volume\n2024-01-16,1,1,1,1,1\n2024-01-15,2,2,2,2,2\n2024-01-16,3,3,3,3,3\n"

-- A second record with letters in two of its columns.
def spoilt : String :=
  "date,open,high,low,close,volume\n2024-01-16,1,1,1,1,1\n2024-01-15,2,2,x,y,2\n"

theorem load_records_days :
    (∃ sorted, load unordered = .ok sorted ∧
      sorted.Perm [still ⟨2024, 1, 16⟩ 1.0, still ⟨2024, 1, 15⟩ 2.0, still ⟨2024, 1, 16⟩ 3.0] ∧
      sorted.Pairwise (fun a b => a.date ≤ b.date) ∧
      sorted.filter (fun bar => bar.date = ⟨2024, 1, 16⟩) =
        [still ⟨2024, 1, 16⟩ 1.0, still ⟨2024, 1, 16⟩ 3.0]) ∧
    ∃ e, load spoilt = .error e ∧ (Failure.data (.candles e)).message =
      "data error: line 3: invalid low value 'x': invalid float literal" := by
  have hbars : (Table.records unordered).mapM barOfRecord = .ok [still ⟨2024, 1, 16⟩ 1.0,
      still ⟨2024, 1, 15⟩ 2.0, still ⟨2024, 1, 16⟩ 3.0] := rfl
  have hspoilt : load spoilt = .error (.row 3 (.badNumber .low "x" .invalid)) := rfl
  constructor
  · have hcarry : ∀ record ∈ Table.records unordered, ∃ bar, Carries record bar := by
      rcases mapM_barOfRecord (Table.records unordered) with
        ⟨bars, -, hall⟩ | ⟨_, _, _, _, -, -, -, he⟩
      · exact forall_carries hall
      · cases hbars.symm.trans he
    obtain ⟨bars, sorted, hall, hload, hperm, hsorted, hday⟩ := (load_records unordered).1 hcarry
    cases (mapM_of_carries hall).symm.trans hbars
    exact ⟨sorted, hload, hperm, hsorted, (hday ⟨2024, 1, 16⟩).trans rfl⟩
  · have hnot : ¬∀ record ∈ Table.records spoilt, ∃ bar, Carries record bar := by
      intro hcarry
      obtain ⟨_, _, -, hload, -⟩ := (load_records spoilt).1 hcarry
      cases hload.symm.trans hspoilt
    obtain ⟨_, _, _, e, _, -, -, -, hload, -⟩ := (load_records spoilt).2 hnot
    cases hload.symm.trans hspoilt
    exact ⟨_, hload, rfl⟩

-- A record with letters in a column, behind headings whose line ends in two
-- characters.
def carried : String := "date,open,high,low,close,volume\r\n2024-01-15,1,2,x,1,1\r\n"

-- The same record behind an empty line.
def spaced : String := "date,open,high,low,close,volume\n\n2024-01-15,1,2,x,1,1\n"

-- The line feed in front of the record belongs to it as the reader has it. So a
-- record on line 2 is told to be on line 1, that of the headings, and one on
-- line 3 to be on line 2.
theorem load_records_lags :
    (∃ row e, Table.records carried = [.ok row] ∧ Table.StandsOn carried row 2 1 ∧
      load carried = .error e ∧ (Failure.data (.candles e)).message =
        "data error: line 1: invalid low value 'x': invalid float literal") ∧
    ∃ row e, Table.records spaced = [.ok row] ∧ Table.StandsOn spaced row 3 1 ∧
      load spaced = .error e ∧ (Failure.data (.candles e)).message =
        "data error: line 2: invalid low value 'x': invalid float literal" := by
  constructor
  · refine ⟨⟨⟨1, 32⟩, ["2024-01-15", "1", "2", "x", "1", "1"]⟩,
      .row 1 (.badNumber .low "x" .invalid), rfl, ?_, rfl, rfl⟩
    exact ⟨"date,open,high,low,close,volume\r".toList, ['\n'], '2',
      "024-01-15,1,2,x,1,1\r\n".toList, rfl, rfl, rfl, List.forall_mem_singleton.mpr rfl, rfl,
      rfl, rfl⟩
  · refine ⟨⟨⟨2, 32⟩, ["2024-01-15", "1", "2", "x", "1", "1"]⟩,
      .row 2 (.badNumber .low "x" .invalid), rfl, ?_, rfl, rfl⟩
    exact ⟨"date,open,high,low,close,volume\n".toList, ['\n'], '2',
      "024-01-15,1,2,x,1,1\n".toList, rfl, rfl, rfl, List.forall_mem_singleton.mpr rfl, rfl,
      rfl, rfl⟩

end Candle

end CandleScript
