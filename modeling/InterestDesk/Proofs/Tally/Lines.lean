import InterestDesk.Exposition
import InterestDesk.Proofs.Decimal.Text
/-!
# Lines — an exposition as a scraper takes it

A scraper takes a text line by line, and the first word of a line names its series.  The lines of an exposition are the
ones it was made of (`linesOf_text`), since none of them holds a line feed of its own, and their series are a fixed list
(`map_series_lines`).
-/
namespace InterestDesk
namespace Exposition

/-- The lines of a text. -/
def linesOf (text : String) : List String :=
  (text.toList.splitOn '\n').map String.ofList

/-- The series that a line is about: its first word. -/
def series (line : String) : String :=
  String.ofList (line.toList.takeWhile (· != ' '))

section Words

theorem not_mem_ofList {c : Char} {s : List Char} (h : c ∉ s) : c ∉ (String.ofList s).toList := by
  rwa [String.toList_ofList]

theorem not_mem_append {c : Char} {s t : String} (hs : c ∉ s.toList) (ht : c ∉ t.toList) : c ∉ (s ++ t).toList := by
  rw [String.toList_append, List.mem_append, not_or]
  exact ⟨hs, ht⟩

theorem series_word {word : String} (h : ' ' ∉ word.toList) (rest : String) :
    series (word ++ (" " ++ rest)) = word := by
  have hword : ∀ c ∈ word.toList, (c != ' ') = true := fun c hc => bne_iff_ne.2 fun heq => h (heq ▸ hc)
  unfold series
  rw [String.toList_append, String.toList_append, List.takeWhile_append_of_pos hword,
    show " ".toList = [' '] from rfl, List.singleton_append, List.takeWhile_cons_of_neg (by decide), List.append_nil,
    String.ofList_toList]

theorem series_sample {name : String} (h : ' ' ∉ name.toList) (value : String) :
    series (sample name value) = namespaceName ++ name := by
  unfold sample
  rw [String.append_assoc]
  exact series_word (not_mem_append (not_mem_ofList (by decide)) h) value

theorem map_series_heading (name help kind : String) : (heading name help kind).map series = ["#", "#"] := by
  have hmark : ' ' ∉ "#".toList := by decide
  unfold heading
  rw [show "# HELP " = "#" ++ " " ++ "HELP " from rfl, show "# TYPE " = "#" ++ " " ++ "TYPE " from rfl]
  simp only [String.append_assoc, List.map_cons, List.map_nil, series_word hmark]

theorem map_series_counter {name : String} (h : ' ' ∉ name.toList) (help : String) (value : UInt64) :
    (counter name help value).map series = ["#", "#", namespaceName ++ name, ""] := by
  unfold counter
  rw [List.map_append, map_series_heading, List.map_cons, series_sample h]
  rfl

end Words

section Lines

theorem linesOf_join : ∀ {lines : List String}, (∀ line ∈ lines, '\n' ∉ line.toList) →
    linesOf (String.join (lines.map (· ++ "\n"))) = lines ++ [""]
  | [], _ => rfl
  | line :: rest, h => by
    rw [List.forall_mem_cons] at h
    have ih := linesOf_join h.2
    unfold linesOf at ih ⊢
    rw [String.toList_join] at ih ⊢
    rw [List.map_cons, List.flatMap_cons, String.toList_append, show "\n".toList = ['\n'] from rfl, List.append_assoc,
      List.singleton_append, List.splitOn_append_cons_self_of_not_mem h.1, List.map_cons, ih, String.ofList_toList]
    rfl

theorem not_mem_toString {c : Char} (h : c.isDigit = false) (n : Nat) : c ∉ (toString n).toList := by
  intro hc
  rw [Nat.toString_eq_repr, Nat.toList_repr] at hc
  rw [Decimal.isDigit_of_mem_digits hc] at h
  cases h

theorem not_mem_formatFixed {c : Char} (h : c.isDigit = false) (hpoint : c ≠ '.') (m : Binary64.Magnitude)
    (places : Nat) : c ∉ (Decimal.formatFixed m places).toList := by
  unfold Decimal.formatFixed
  dsimp only
  rw [String.toList_ofList, Decimal.fraction_eq, List.mem_append, not_or]
  constructor
  · intro hc
    rw [Decimal.isDigit_of_mem_digits hc] at h
    cases h
  · split
    · exact List.not_mem_nil
    · rw [List.mem_cons, not_or]
      refine ⟨hpoint, fun hc => ?_⟩
      rw [Decimal.isDigit_of_mem_fractionDigits hc] at h
      cases h

theorem lineFeed_not_mem_formatUnsigned (value : Binary64) (places : Nat) :
    '\n' ∉ (Decimal.formatUnsigned value places).toList := by
  have hword : ∀ other, '\n' ∉ (Decimal.nonFiniteWord other).toList := by
    intro other
    unfold Decimal.nonFiniteWord
    split <;> decide
  cases value with
  | finite negative m => exact not_mem_formatFixed rfl (by decide) m places
  | infinity negative => exact hword (.infinity negative)
  | nan => exact hword .nan

theorem lineFeed_not_mem_sample {name value : String} (hname : '\n' ∉ name.toList) (hvalue : '\n' ∉ value.toList) :
    '\n' ∉ (sample name value).toList :=
  not_mem_append (not_mem_append (not_mem_append (not_mem_ofList (by decide)) hname) (not_mem_ofList (by decide)))
    hvalue

theorem lineFeed_not_mem_heading {name help kind : String} (hname : '\n' ∉ name.toList) (hhelp : '\n' ∉ help.toList)
    (hkind : '\n' ∉ kind.toList) : ∀ line ∈ heading name help kind, '\n' ∉ line.toList := by
  have hspace : '\n' ∉ " ".toList := by decide
  have hname : ∀ {mark : String}, '\n' ∉ mark.toList → '\n' ∉ (mark ++ namespaceName ++ name ++ " ").toList :=
    fun hmark => not_mem_append (not_mem_append (not_mem_append hmark (not_mem_ofList (by decide))) hname) hspace
  refine List.forall_mem_cons.2 ⟨not_mem_append (hname (by decide)) hhelp, List.forall_mem_singleton.2 ?_⟩
  exact not_mem_append (hname (by decide)) hkind

theorem lineFeed_not_mem_counter {name help : String} (hname : '\n' ∉ name.toList) (hhelp : '\n' ∉ help.toList)
    (value : UInt64) : ∀ line ∈ counter name help value, '\n' ∉ line.toList := by
  refine List.forall_mem_append.2 ⟨lineFeed_not_mem_heading hname hhelp (by decide), ?_⟩
  refine List.forall_mem_cons.2 ⟨lineFeed_not_mem_sample hname (not_mem_toString rfl _), ?_⟩
  exact List.forall_mem_singleton.2 (by decide)

theorem lineFeed_not_mem_bucket {bound : String} (hbound : '\n' ∉ bound.toList) (count : UInt64) :
    '\n' ∉ (bucket bound count).toList :=
  lineFeed_not_mem_sample (not_mem_append (not_mem_append (not_mem_ofList (by decide)) hbound) (by decide))
    (not_mem_toString rfl _)

theorem lineFeed_not_mem_durations (t : Tally) : ∀ line ∈ durations t, '\n' ∉ line.toList := by
  refine List.forall_mem_append.2 ⟨List.forall_mem_append.2 ⟨?_, ?_⟩, ?_⟩
  · exact lineFeed_not_mem_heading (not_mem_ofList (by decide)) (not_mem_ofList (by decide)) (by decide)
  · have hbounds : ∀ entry ∈ t.latency.cumulative, '\n' ∉ entry.1.toList := by simp [LatencyBuckets.cumulative]
    rw [List.forall_mem_map]
    exact fun entry hentry => lineFeed_not_mem_bucket (hbounds entry hentry) entry.2
  · simp only [List.forall_mem_cons]
    exact ⟨lineFeed_not_mem_bucket (by decide) _,
      lineFeed_not_mem_sample (not_mem_ofList (by decide)) (lineFeed_not_mem_formatUnsigned _ 6),
      lineFeed_not_mem_sample (not_mem_ofList (by decide)) (not_mem_toString rfl _), by decide, List.forall_mem_nil _⟩

theorem lineFeed_not_mem_lines (t : Tally) (uptime : Nat) : ∀ line ∈ lines t uptime, '\n' ∉ line.toList := by
  have hheading {name help : List Char} (hname : '\n' ∉ name) (hhelp : '\n' ∉ help) :
      ∀ line ∈ heading (String.ofList name) (String.ofList help) "gauge", '\n' ∉ line.toList :=
    lineFeed_not_mem_heading (not_mem_ofList hname) (not_mem_ofList hhelp) (by decide)
  have hsample {name : List Char} (hname : '\n' ∉ name) (n : Nat) :
      '\n' ∉ (sample (String.ofList name) (toString n)).toList :=
    lineFeed_not_mem_sample (not_mem_ofList hname) (not_mem_toString rfl n)
  have hcounter {name help : List Char} (hname : '\n' ∉ name) (hhelp : '\n' ∉ help) :=
    lineFeed_not_mem_counter (not_mem_ofList hname) (not_mem_ofList hhelp)
  unfold lines
  simp only [List.forall_mem_append, List.forall_mem_cons]
  refine ⟨⟨⟨⟨⟨⟨⟨⟨⟨?_, ?_⟩, ?_⟩, ?_⟩, ?_⟩, ?_⟩, ?_⟩, ?_⟩, ?_⟩, ?_⟩
  · exact hheading (by decide) (by decide)
  · exact ⟨hsample (by decide) uptime, by decide, List.forall_mem_nil _⟩
  · exact hcounter (by decide) (by decide) t.total
  · exact hcounter (by decide) (by decide) t.computed
  · exact hcounter (by decide) (by decide) t.failed
  · exact hcounter (by decide) (by decide) t.rateLimited
  · exact hcounter (by decide) (by decide) t.errors
  · exact lineFeed_not_mem_durations t
  · exact hheading (by decide) (by decide)
  · exact ⟨hsample (by decide) t.activeClients, List.forall_mem_nil _⟩

/-- **The lines of an exposition are those it was made of.** -/
theorem linesOf_text (t : Tally) (uptime : Nat) : linesOf (text t uptime) = lines t uptime ++ [""] :=
  linesOf_join (lineFeed_not_mem_lines t uptime)

/-- The series of the lines of an exposition; a line of comment is about none. -/
def allSeries : List String :=
  ["#", "#", "interest_calc_uptime_seconds", "", "#", "#", "interest_calc_requests_total", "",
   "#", "#", "interest_calc_requests_computed", "", "#", "#", "interest_calc_requests_failed", "",
   "#", "#", "interest_calc_requests_rate_limited", "", "#", "#", "interest_calc_requests_errors", "",
   "#", "#", "interest_calc_request_duration_bucket\x7ble=\"0.001\"\x7d",
   "interest_calc_request_duration_bucket\x7ble=\"0.01\"\x7d",
   "interest_calc_request_duration_bucket\x7ble=\"0.1\"\x7d",
   "interest_calc_request_duration_bucket\x7ble=\"1\"\x7d",
   "interest_calc_request_duration_bucket\x7ble=\"+Inf\"\x7d",
   "interest_calc_request_duration_sum", "interest_calc_request_duration_count", "",
   "#", "#", "interest_calc_active_clients", ""]

theorem map_series_lines (t : Tally) (uptime : Nat) : (lines t uptime ++ [""]).map series = allSeries := by
  have hbucket {bound : String} (h : ' ' ∉ bound.toList) (count : UInt64) : series (bucket bound count) =
      namespaceName ++ ("request_duration_bucket\x7ble=\"" ++ bound ++ "\"\x7d") :=
    series_sample (not_mem_append (not_mem_append (not_mem_ofList (by decide)) h) (by decide)) _
  unfold lines durations LatencyBuckets.cumulative
  simp only [List.map_append, map_series_heading, List.map_cons, List.map_nil]
  rw [map_series_counter (not_mem_ofList (by decide)), map_series_counter (not_mem_ofList (by decide)),
    map_series_counter (not_mem_ofList (by decide)), map_series_counter (not_mem_ofList (by decide)),
    map_series_counter (not_mem_ofList (by decide)), hbucket (by decide), hbucket (by decide), hbucket (by decide),
    hbucket (by decide), hbucket (by decide), series_sample (not_mem_ofList (by decide)),
    series_sample (not_mem_ofList (by decide)), series_sample (not_mem_ofList (by decide)),
    series_sample (not_mem_ofList (by decide))]
  rfl

end Lines

end Exposition
end InterestDesk
