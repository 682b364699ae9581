import Merovingian.Http.RequestHead

/-!
# The request head cannot be read in two ways

What `parseRequestHead` answers depends only on the bytes through the first blank line, and an
accepted head has one length, no transfer coding, and no line end or NUL inside any of its parts.
Writing an accepted head out again, with each value directly after its colon, and reading that
gives the same result: the parser reads nothing into the blanks that it dropped.  The inductions
over the lines rest on what one accepted line can be (`accepted_line`).
-/

namespace Merovingian.Http

open Merovingian List

/-! ### Only the bytes through the blank line count -/

lemma parseHeaderLines_blank (limits : RequestLimits) (lines rest : List Str)
    (request : RequestHead) (total : ℕ) :
    parseHeaderLines limits request total (lines ++ [] :: rest) =
      parseHeaderLines limits request total (lines ++ [[]]) := by
  induction lines generalizing request total with
  | nil => rfl
  | cons line lines ih =>
    simp [parseHeaderLines, ih]

theorem parseRequestHead_throughBlankLine (input : Str) (limits : RequestLimits) :
    parseRequestHead (throughBlankLine input) limits = parseRequestHead input limits := by
  rcases throughBlankLine_cases input with h | ⟨u, t, hhead, hinput⟩
  · rw [h]
  · -- the lines through the blank one are a request line, header lines and an empty line
    have hlines : ∀ s, crlfLines (u ++ 13 :: 10 :: 13 :: 10 :: s) =
        crlfLines (u ++ [13, 10]) ++ [] :: crlfLines s := by
      intro s
      have hblank : crlfLines (13 :: 10 :: s) = [] :: crlfLines s :=
        crlfLines_cons (s := []) not_mem_nil s
      rw [crlfLines_append, hblank]
    have hshort : crlfLines (throughBlankLine input) = crlfLines (u ++ [13, 10]) ++ [[]] := by
      rw [hhead]
      exact hlines []
    have hlong : crlfLines input = crlfLines (u ++ [13, 10]) ++ [] :: crlfLines t := by
      rw [hinput]
      exact hlines t
    rw [parseRequestHead, parseRequestHead, hshort, hlong]
    cases crlfLines (u ++ [13, 10]) with
    | nil => rfl
    | cons requestLine lines => simp [parseHeaderLines_blank]

/-! ### One accepted line -/

/-- A header as it is written: name, colon, value. -/
def headerLine (h : Header) : Str := h.name ++ 58 :: h.value

/-- The checks that a header passes on its own. -/
structure ValidHeader (h : Header) : Prop where
  name : headerNameIsValid h.name = true
  value : headerValueIsValid h.value = true
  trimmed : Trimmed h.value
  noTransferEncoding : h.name.map asciiLower ≠ (lit "transfer-encoding")

/-- The header gives the length of the body. -/
def IsContentLength (h : Header) : Prop := h.name.map asciiLower = lit "content-length"

instance (h : Header) : Decidable (IsContentLength h) := inferInstanceAs (Decidable (_ = _))

variable {request : RequestHead} {limits : RequestLimits} {text input : Str} {request' : RequestHead}
  {h : Header} {total : ℕ} {lines rest : List Str}

lemma appendHeaderOrError_accept (haccept : appendHeaderOrError request h = (request', .none)) :
    h.name.map asciiLower ≠ (lit "transfer-encoding") ∧
      ((IsContentLength h ∧ ∃ n, parseU64Decimal (trimBlanks h.value) = some n ∧
          (request.hasContentLength = true → request.contentLength = n) ∧
          request' = { request with
            hasContentLength := true, contentLength := n, headers := request.headers ++ [h] }) ∨
        ¬ IsContentLength h ∧ request' = { request with headers := request.headers ++ [h] }) := by
  have hlength : (lit "content-length").map asciiLower = lit "content-length" := by decide
  have hcoding : (lit "transfer-encoding").map asciiLower = lit "transfer-encoding" := by decide
  rw [appendHeaderOrError] at haccept
  split at haccept
  · rename_i hname
    rw [equalsAsciiCaseInsensitive_iff] at hname
    refine ⟨by rw [hname]; decide, .inl ⟨hname, ?_⟩⟩
    cases hparse : parseU64Decimal (trimBlanks h.value) with
    | none => simp [hparse] at haccept
    | some n =>
      simp only [hparse] at haccept
      split at haccept
      · simp at haccept
      · rename_i hsame
        refine ⟨n, rfl, fun hhas => ?_, (Prod.ext_iff.mp haccept).1.symm⟩
        simpa [hhas] using hsame
  · rename_i hname
    rw [equalsAsciiCaseInsensitive_iff] at hname
    split at haccept
    · simp at haccept
    · rename_i hother
      rw [equalsAsciiCaseInsensitive_iff] at hother
      exact ⟨hother, .inr ⟨hname, (Prod.ext_iff.mp haccept).1.symm⟩⟩

/-- A header stands on a line: its name before a colon, its value between blanks after it. -/
def OnLine (line : Str) (h : Header) : Prop :=
  ∃ raw, line = h.name ++ 58 :: raw ∧ trimBlanks raw = h.value

/-- What an accepted header line is: within the limits, a valid header, and the loop goes on with
the head that has it. -/
lemma accepted_line {line : Str} (hne : line ≠ [])
    (haccept : (parseHeaderLines limits request total (line :: rest)).error = .none) :
    ∃ h request', ValidHeader h ∧ OnLine line h ∧ (headerLine h).length ≤ line.length ∧
      total + (line.length + 2) ≤ limits.maxHeaderBytes ∧
      request.headers.length < limits.maxHeaderCount ∧
      appendHeaderOrError request h = (request', .none) ∧
      parseHeaderLines limits request total (line :: rest) =
        parseHeaderLines limits request' (total + (line.length + 2)) rest := by
  have hempty : ¬ line.isEmpty = true := by simpa using hne
  rw [parseHeaderLines] at haccept ⊢
  split_ifs at haccept ⊢ with hbytes hcount
  cases hcut : (cut 58 line).2 with
  | none =>
    rw [hcut] at haccept
    cases haccept
  | some raw =>
    simp only [hcut] at haccept ⊢
    split_ifs at haccept ⊢ with hvalid
    cases happend : appendHeaderOrError request ⟨(cut 58 line).1, trimBlanks raw⟩ with
    | mk request' error =>
      simp only [happend] at haccept ⊢
      cases error with
      | none =>
        simp only [Bool.or_eq_true, Bool.not_eq_true', not_or, Bool.not_eq_false] at hvalid
        refine ⟨_, request', ⟨hvalid.1, hvalid.2, trimmed_trimBlanks raw,
          (appendHeaderOrError_accept happend).1⟩, ⟨raw, eq_of_cut_some hcut, rfl⟩, ?_, by omega,
          by omega, happend, rfl⟩
        have htrim := length_trimBlanks_le raw
        have hlen := congrArg length (eq_of_cut_some hcut)
        simp only [headerLine, length_append, length_cons] at hlen ⊢
        omega
      | _ => cases haccept

/-! ### The invariant of the head -/

/-- What holds of a head while its headers are read. -/
structure Sound (r : RequestHead) : Prop where
  valid : ∀ h ∈ r.headers, ValidHeader h
  length : ∀ h ∈ r.headers, IsContentLength h →
    r.hasContentLength = true ∧ parseU64Decimal h.value = some r.contentLength
  present : r.hasContentLength = true → ∃ h ∈ r.headers, IsContentLength h
  absent : r.hasContentLength = false → r.contentLength = 0
  bound : r.contentLength < 2 ^ 64

/-- An accepted header keeps the invariant. -/
lemma Sound.append (hs : Sound request) (hvalid : ValidHeader h)
    (haccept : appendHeaderOrError request h = (request', .none)) : Sound request' := by
  have hmem : ∀ h' ∈ request.headers ++ [h], ValidHeader h' :=
    forall_mem_append.mpr ⟨hs.valid, forall_mem_singleton.mpr hvalid⟩
  obtain ⟨-, ⟨hlength, n, hparse, hsame, rfl⟩ | ⟨hother, rfl⟩⟩ := appendHeaderOrError_accept haccept
  · rw [trimBlanks_eq_self hvalid.trimmed] at hparse
    refine ⟨hmem, forall_mem_append.mpr ⟨fun h' hold hl => ⟨rfl, ?_⟩,
      forall_mem_singleton.mpr fun _ => ⟨rfl, hparse⟩⟩, fun _ => ⟨h, by simp, hlength⟩,
      fun hf => (by cases hf), (parseU64Decimal_eq_some.mp hparse).2.2.1⟩
    obtain ⟨hhas, hvalue⟩ := hs.length h' hold hl
    rw [hvalue, hsame hhas]
  · refine ⟨hmem, forall_mem_append.mpr ⟨hs.length, forall_mem_singleton.mpr (absurd · hother)⟩,
      fun hhas => ?_, hs.absent, hs.bound⟩
    obtain ⟨h', hold, hl⟩ := hs.present hhas
    exact ⟨h', mem_append_left _ hold, hl⟩

lemma appendHeaderOrError_fields (haccept : appendHeaderOrError request h = (request', .none)) :
    request'.headers = request.headers ++ [h] ∧ request'.method = request.method ∧
      request'.target = request.target ∧ request'.version = request.version := by
  obtain ⟨-, ⟨-, n, -, -, rfl⟩ | ⟨-, rfl⟩⟩ := appendHeaderOrError_accept haccept <;>
    exact ⟨rfl, rfl, rfl, rfl⟩

lemma parseHeaderLines_sound (hs : Sound request)
    (haccept : (parseHeaderLines limits request total lines).error = .none) :
    Sound (parseHeaderLines limits request total lines).request ∧
      (parseHeaderLines limits request total lines).request.method = request.method ∧
      (parseHeaderLines limits request total lines).request.target = request.target ∧
      (parseHeaderLines limits request total lines).request.version = request.version := by
  induction lines generalizing request total with
  | nil => cases haccept
  | cons line rest ih =>
    by_cases hne : line = []
    · subst hne
      exact ⟨hs, rfl, rfl, rfl⟩
    · obtain ⟨h, request', hvalid, -, -, -, -, happend, hstep⟩ := accepted_line hne haccept
      rw [hstep] at haccept ⊢
      obtain ⟨hsound, hm, ht, hv⟩ := ih (hs.append hvalid happend) haccept
      obtain ⟨-, hm', ht', hv'⟩ := appendHeaderOrError_fields happend
      exact ⟨hsound, hm.trans hm', ht.trans ht', hv.trans hv'⟩

/-! ### Reading an accepted head again -/

lemma parseHeaderLines_headerLine (hvalid : ValidHeader h)
    (hbytes : total + ((headerLine h).length + 2) ≤ limits.maxHeaderBytes)
    (hcount : request.headers.length < limits.maxHeaderCount)
    (happend : appendHeaderOrError request h = (request', .none)) :
    parseHeaderLines limits request total (headerLine h :: rest) =
      parseHeaderLines limits request' (total + ((headerLine h).length + 2)) rest := by
  have hcolon : 58 ∉ h.name := by
    intro hmem
    have hname := hvalid.name
    rw [headerNameIsValid, Bool.and_eq_true, all_eq_true] at hname
    exact (isTchar_ne (hname.2 58 hmem)).2.2.2.2 rfl
  have hempty : ¬ (headerLine h).isEmpty = true := by simp [headerLine]
  have hcut : cut 58 (headerLine h) = (h.name, some h.value) := cut_append hcolon h.value
  rw [parseHeaderLines, if_neg hempty, if_neg (by omega), if_neg (by omega), hcut]
  simp only [trimBlanks_eq_self hvalid.trimmed, hvalid.name, hvalid.value, Bool.not_true,
    Bool.or_self, Bool.false_eq_true, if_false]
  rw [happend]

/-- The headers that an accepted run of the loop adds are those of its lines up to an empty one;
written out, they give the same run. -/
lemma parseHeaderLines_rewrite
    (haccept : (parseHeaderLines limits request total lines).error = .none) :
    ∃ new, (parseHeaderLines limits request total lines).request.headers =
        request.headers ++ new ∧ (∀ h ∈ new, ValidHeader h) ∧
      (∃ read after, lines = read ++ [] :: after ∧ Forall₂ OnLine read new) ∧
      ∀ total' ≤ total, parseHeaderLines limits request total' (new.map headerLine ++ [[]]) =
        parseHeaderLines limits request total lines := by
  induction lines generalizing request total with
  | nil => cases haccept
  | cons line rest ih =>
    by_cases hne : line = []
    · subst hne
      exact ⟨[], (append_nil _).symm, by simp, ⟨[], rest, rfl, .nil⟩, fun _ _ => rfl⟩
    · obtain ⟨h, request', hvalid, honline, hshort, hbytes, hcount, happend, hstep⟩ :=
        accepted_line hne haccept
      rw [hstep] at haccept ⊢
      obtain ⟨new, hheaders, hnew, ⟨read, after, rfl, hread⟩, hrun⟩ := ih haccept
      refine ⟨h :: new, ?_, forall_mem_cons.mpr ⟨hvalid, hnew⟩,
        ⟨line :: read, after, rfl, .cons honline hread⟩, fun total' hle => ?_⟩
      · rw [hheaders, (appendHeaderOrError_fields happend).1, append_assoc, singleton_append]
      · -- the written line is no longer than the line that was read
        rw [map_cons, cons_append, parseHeaderLines_headerLine hvalid (by omega) hcount happend]
        exact hrun _ (by omega)

/-! ### The request line -/

def versionText : HttpVersion → Str
  | .http11 => lit "HTTP/1.1"
  | .http10 => lit "HTTP/1.0"

/-- The request line as it is written. -/
def requestLineText (r : RequestHead) : Str :=
  r.method ++ 32 :: (r.target ++ 32 :: versionText r.version)

lemma parseVersion_eq_some {v : HttpVersion} (h : parseVersion text = some v) :
    text = versionText v := by
  rw [parseVersion] at h
  split_ifs at h with h11 h10
  · cases h
    exact h11
  · cases h
    exact h10

lemma parseRequestLine_accept {line : Str} (h : parseRequestLine line = ⟨request, .none⟩) :
    line = requestLineText request ∧ methodTokenIsValid request.method = true ∧
      requestTargetIsValid request.target = true ∧ request.headers = [] ∧ Sound request := by
  rw [parseRequestLine] at h
  cases hfirst : (cut 32 line).2 with
  | none => simp [hfirst] at h
  | some afterMethod =>
    cases hsecond : (cut 32 afterMethod).2 with
    | none => simp [hfirst, hsecond] at h
    | some version =>
      simp only [hfirst, hsecond] at h
      split at h
      · cases h
      cases hversion : parseVersion version with
      | none => simp [hversion] at h
      | some v =>
        simp only [hversion] at h
        split_ifs at h with hmethod htarget
        · cases h
        · cases h
        · cases h
          refine ⟨?_, by simpa using hmethod, by simpa using htarget, rfl, ?_⟩
          · rw [requestLineText, ← parseVersion_eq_some hversion]
            exact (eq_of_cut_some hfirst).trans (by rw [← eq_of_cut_some hsecond])
          · exact ⟨by simp [RequestHead.initial], by simp [RequestHead.initial],
              by simp [RequestHead.initial], fun _ => rfl, by simp [RequestHead.initial]⟩

/-! ### Parts without line ends -/

/-- No CR, LF or NUL. -/
def NoLineEnd (text : Str) : Prop := 13 ∉ text ∧ 10 ∉ text ∧ 0 ∉ text

lemma noLineEnd_of_tchars (h : text.all isTchar = true) : NoLineEnd text := by
  rw [all_eq_true] at h
  refine ⟨fun hm => (isTchar_ne (h _ hm)).2.2.1 rfl, fun hm => (isTchar_ne (h _ hm)).2.1 rfl,
    fun hm => (isTchar_ne (h _ hm)).1 rfl⟩

lemma noLineEnd_of_method (h : methodTokenIsValid text = true) : NoLineEnd text := by
  rw [methodTokenIsValid, Bool.and_eq_true] at h
  exact noLineEnd_of_tchars h.2

lemma noLineEnd_of_target (h : requestTargetIsValid text = true) : NoLineEnd text := by
  simp only [requestTargetIsValid, containsControlOrSpace, Bool.and_eq_true, Bool.not_eq_true',
    any_eq_false] at h
  exact ⟨fun hm => h.2 _ hm (by decide), fun hm => h.2 _ hm (by decide),
    fun hm => h.2 _ hm (by decide)⟩

lemma noLineEnd_of_name (h : headerNameIsValid text = true) : NoLineEnd text := by
  rw [headerNameIsValid, Bool.and_eq_true] at h
  exact noLineEnd_of_tchars h.2

lemma noLineEnd_of_value (h : headerValueIsValid text = true) : NoLineEnd text := by
  rw [headerValueIsValid, all_eq_true] at h
  exact ⟨fun hm => absurd (h _ hm) (by decide), fun hm => absurd (h _ hm) (by decide),
    fun hm => absurd (h _ hm) (by decide)⟩

/-! ### Writing a head -/

/-- The head as it is written: the request line, each header as name, colon and value, and an
empty line, each ended by CR LF. -/
def writeHead (r : RequestHead) : Str :=
  requestLineText r ++ 13 :: 10 ::
    ((r.headers.map fun h => headerLine h ++ [13, 10]).flatten ++ [13, 10])

lemma crlfLines_headers {headers : List Header} (h : ∀ x ∈ headers, ValidHeader x) :
    crlfLines ((headers.map fun h => headerLine h ++ [13, 10]).flatten ++ [13, 10]) =
      headers.map headerLine ++ [[]] := by
  induction headers with
  | nil => decide
  | cons x headers ih =>
    have hx := h x mem_cons_self
    have hno : 13 ∉ headerLine x := by
      simp only [headerLine, mem_append, mem_cons, not_or]
      exact ⟨(noLineEnd_of_name hx.name).1, by decide, (noLineEnd_of_value hx.value).1⟩
    have hrest := ih fun y hy => h y (mem_cons_of_mem _ hy)
    rw [map_cons, flatten_cons, append_assoc, append_assoc, cons_append,
      cons_append, nil_append, crlfLines_cons hno, hrest, map_cons, cons_append]

lemma parseRequestHead_accept (haccept : (parseRequestHead input limits).error = .none) :
    ∃ request lines, crlfLines input = requestLineText request :: lines ∧
      (requestLineText request).length ≤ limits.maxStartLineBytes ∧
      parseRequestLine (requestLineText request) = ⟨request, .none⟩ ∧
      parseRequestHead input limits = parseHeaderLines limits request 0 lines := by
  rw [parseRequestHead] at haccept ⊢
  cases hlines : crlfLines input with
  | nil => simp [hlines] at haccept
  | cons line lines =>
    simp only [hlines] at haccept
    split at haccept
    · cases haccept
    · rename_i hlength
      cases hline : parseRequestLine line with
      | mk request error =>
        rw [hline] at haccept
        cases error with
        | none =>
          have hwritten := (parseRequestLine_accept hline).1
          refine ⟨request, lines, by rw [hwritten], by rw [← hwritten]; omega,
            by rw [← hwritten]; exact hline, ?_⟩
          simp [if_neg hlength, hline]
        | _ => cases haccept

lemma parseRequestHead_writeHead (haccept : (parseRequestHead input limits).error = .none) :
    parseRequestHead (writeHead (parseRequestHead input limits).request) limits =
      parseRequestHead input limits := by
  obtain ⟨request, lines, -, hlength, hline, hrun⟩ := parseRequestHead_accept haccept
  rw [hrun] at haccept ⊢
  obtain ⟨-, hmethod, htarget, hnone, hsound⟩ := parseRequestLine_accept hline
  obtain ⟨-, hm, ht, hv⟩ := parseHeaderLines_sound hsound haccept
  obtain ⟨new, hheaders, hvalid, -, hagain⟩ := parseHeaderLines_rewrite haccept
  have htext : requestLineText (parseHeaderLines limits request 0 lines).request =
      requestLineText request := by
    rw [requestLineText, hm, ht, hv]
    rfl
  have hno : 13 ∉ requestLineText request := by
    simp only [requestLineText, mem_append, mem_cons, not_or]
    refine ⟨(noLineEnd_of_method hmethod).1, by decide, (noLineEnd_of_target htarget).1,
      by decide, ?_⟩
    cases request.version <;> decide
  have hlines : crlfLines (writeHead (parseHeaderLines limits request 0 lines).request) =
      requestLineText request :: (new.map headerLine ++ [[]]) := by
    rw [writeHead, htext, hheaders, hnone, nil_append, crlfLines_cons hno, crlfLines_headers hvalid]
  rw [parseRequestHead, hlines]
  simp only [if_neg (not_lt.mpr hlength), hline]
  exact hagain 0 (le_refl 0)

lemma parseRequestHead_lines (haccept : (parseRequestHead input limits).error = .none) :
    ∃ lines body, input = requestLineText (parseRequestHead input limits).request ++ 13 :: 10 ::
        ((lines.map (· ++ [13, 10])).flatten ++ 13 :: 10 :: body) ∧
      Forall₂ OnLine lines (parseRequestHead input limits).request.headers := by
  obtain ⟨request, lines, hinput, -, hline, hrun⟩ := parseRequestHead_accept haccept
  rw [hrun] at haccept ⊢
  obtain ⟨-, -, -, hnone, hsound⟩ := parseRequestLine_accept hline
  obtain ⟨-, hm, ht, hv⟩ := parseHeaderLines_sound hsound haccept
  obtain ⟨new, hheaders, -, ⟨read, after, rfl, hread⟩, -⟩ := parseHeaderLines_rewrite haccept
  obtain ⟨text, htext, hlines⟩ := eq_of_crlfLinesFrom hinput
  obtain ⟨body, rfl⟩ := eq_of_crlfLines hlines
  refine ⟨read, body, ?_, by rwa [hheaders, hnone, nil_append]⟩
  rw [requestLineText, hm, ht, hv]
  exact htext

/-- **The request head parser admits no request smuggling.**  Its answer depends only on the bytes
through the first blank line.  An accepted head is all that stands before it: the request line, and
the headers line by line.  It has no transfer coding; all its content lengths are the same decimal
number below `2 ^ 64`, which is the length it returns; no part of it holds CR, LF or NUL; and writing
it out and reading that gives the same result. -/
theorem parseRequestHead_unambiguous :
    (∀ input input' limits, throughBlankLine input = throughBlankLine input' →
      parseRequestHead input limits = parseRequestHead input' limits) ∧
    ∀ input limits, (parseRequestHead input limits).error = .none →
      let r := (parseRequestHead input limits).request
      (∃ lines body, input = requestLineText r ++ 13 :: 10 ::
          ((lines.map (· ++ [13, 10])).flatten ++ 13 :: 10 :: body) ∧
        Forall₂ OnLine lines r.headers) ∧
      (∀ h ∈ r.headers, h.name.map asciiLower ≠ (lit "transfer-encoding")) ∧
      (∀ h ∈ r.headers, h.name.map asciiLower = lit "content-length" →
        h.value ≠ [] ∧ h.value.all isDigitByte ∧ digitsValue h.value = r.contentLength) ∧
      r.contentLength < 2 ^ 64 ∧
      (r.hasContentLength = true ↔ ∃ h ∈ r.headers, h.name.map asciiLower = lit "content-length") ∧
      (r.hasContentLength = false → r.contentLength = 0) ∧
      (NoLineEnd r.method ∧ NoLineEnd r.target ∧
        ∀ h ∈ r.headers, NoLineEnd h.name ∧ NoLineEnd h.value) ∧
      parseRequestHead (writeHead r) limits = parseRequestHead input limits := by
  refine ⟨fun input input' limits heq => ?_, fun input limits haccept => ?_⟩
  · rw [← parseRequestHead_throughBlankLine input, heq, parseRequestHead_throughBlankLine]
  · have hlines := parseRequestHead_lines haccept
    have hagain := parseRequestHead_writeHead haccept
    obtain ⟨request, lines, -, -, hline, hrun⟩ := parseRequestHead_accept haccept
    obtain ⟨-, hmethod, htarget, -, hinitial⟩ := parseRequestLine_accept hline
    rw [hrun] at haccept
    obtain ⟨hs, hm, ht, -⟩ := parseHeaderLines_sound hinitial haccept
    rw [← hrun] at hs hm ht
    refine ⟨hlines, fun h hh => (hs.valid h hh).noTransferEncoding, fun h hh hl => ?_, hs.bound,
      ⟨hs.present, ?_⟩, hs.absent, ⟨?_, ?_, fun h hh => ?_⟩, hagain⟩
    · obtain ⟨-, hparse⟩ := hs.length h hh hl
      obtain ⟨hne, hdigits, -, hvalue⟩ := parseU64Decimal_eq_some.mp hparse
      exact ⟨hne, hdigits, hvalue⟩
    · rintro ⟨h, hh, hl⟩
      exact (hs.length h hh hl).1
    · rw [hm]
      exact noLineEnd_of_method hmethod
    · rw [ht]
      exact noLineEnd_of_target htarget
    · exact ⟨noLineEnd_of_name (hs.valid h hh).name, noLineEnd_of_value (hs.valid h hh).value⟩

/-- A request with its length given twice, followed by a body: the body does not matter, and the
head survives being written out. -/
theorem parseRequestHead_unambiguous_post :
    parseRequestHead (lit "POST /x HTTP/1.1\r\nContent-Length: 5 \r\ncontent-length:05\r\n\r\nhello")
        .default =
      parseRequestHead (lit "POST /x HTTP/1.1\r\nContent-Length: 5 \r\ncontent-length:05\r\n\r\n")
        .default ∧
    parseRequestHead (writeHead ⟨"POST", "/x", [⟨"Content-Length", "5"⟩, ⟨"content-length", "05"⟩],
      5, true, .http11⟩) .default =
      ⟨⟨"POST", "/x", [⟨"Content-Length", "5"⟩, ⟨"content-length", "05"⟩], 5, true, .http11⟩,
        .none⟩ := by
  have hread : parseRequestHead
      (lit "POST /x HTTP/1.1\r\nContent-Length: 5 \r\ncontent-length:05\r\n\r\n") .default =
      ⟨⟨"POST", "/x", [⟨"Content-Length", "5"⟩, ⟨"content-length", "05"⟩], 5, true, .http11⟩,
        .none⟩ := by decide
  refine ⟨parseRequestHead_unambiguous.1 _ _ _ (by decide), ?_⟩
  have hagain := (parseRequestHead_unambiguous.2
    (lit "POST /x HTTP/1.1\r\nContent-Length: 5 \r\ncontent-length:05\r\n\r\n") .default
    (by rw [hread])).2.2.2.2.2.2.2
  rwa [hread] at hagain

end Merovingian.Http
