import ProtoVscp.ReplyProofs

/-! # What the database is asked

    The query is a template with the called number pasted into it.  The number
    has come through a text file, but only address signals survive the way
    (`query_is_hex`), and the database is asked nothing else
    (`handleMessage_query`). -/

namespace ProtoVscp

open CheckedLoops M3UAmessage

/-- Handling `b` reaches `Database::find` with the argument `fNum`. -/
def AsksFor (env : Env) (dataTxt : DataTxt) (b : ByteStream) (fNum : CString) : Prop :=
  ∃ q, Requests env dataTxt b q ∧ fNum = q.inapMsg.getCalledPartyNumber

private theorem buildReply_query (env : Env) (sqlite : CString → Sqlite) (q : Request)
    (h : q.inapMsg.getCalledPartyNumber ≠ [] →
      sqlite (Database.sql q.inapMsg.getCalledPartyNumber)
        = env.sqlite (Database.sql q.inapMsg.getCalledPartyNumber)) :
    buildReply { env with sqlite := sqlite } q = buildReply env q := by
  rw [buildReply, buildReply]
  by_cases hnum : q.inapMsg.getCalledPartyNumber.isEmpty
  · rw [if_pos hnum, if_pos hnum]
  · have hfind : Database.find sqlite q.inapMsg.getCalledPartyNumber
        = Database.find env.sqlite q.inapMsg.getCalledPartyNumber := by
      rw [Database.find, Database.find, h (fun h0 => hnum (by rw [h0]; rfl))]
    rw [if_neg hnum, if_neg hnum, hfind]
    rfl

/-- **The database is asked for the numbers that are reached only**: where it
    answers their queries the same, a message is handled the same. -/
theorem handleMessage_query (env : Env) (sqlite : CString → Sqlite) (dataTxt : DataTxt)
    (b : ByteStream)
    (h : ∀ fNum, AsksFor env dataTxt b fNum →
      sqlite (Database.sql fNum) = env.sqlite (Database.sql fNum)) :
    handleMessage { env with sqlite := sqlite } dataTxt b = handleMessage env dataTxt b := by
  rcases handleMessage_cases b with ⟨-, hrun⟩ | ⟨hdata, hrun⟩ | ⟨-, -, hrun⟩
  · rw [hrun, hrun]
  · rw [hrun, hrun, handleData, handleData]
    -- the request is decoded without the database
    show (decodeRequest env dataTxt _ >>= _) = _
    cases hreq : decodeRequest env dataTxt (M3UAmessage.fresh .TM_DATA b) with
    | error fault => rfl
    | ok r =>
        cases r with
        | mk q dataTxt' =>
            cases q with
            | none => rfl
            | some q =>
                have hbuild := buildReply_query env sqlite q
                  fun hne => h _ ⟨q, ⟨hdata, ⟨dataTxt', hreq⟩, hne⟩, rfl⟩
                simp only [ok_bind, hbuild]
  · rw [hrun, hrun]

theorem sql_eq (fNum : CString) :
    Database.sql fNum
      = "SELECT * FROM NUMS WHERE ORIGNUM = '".toList ++ fNum ++ "';".toList := rfl

private theorem count_outside {pre mid post : CString} {c : Char} (h : c ∉ mid) :
    (pre ++ mid ++ post).count c = pre.count c + post.count c := by
  rw [List.count_append, List.count_append, List.count_eq_zero_of_not_mem h, Nat.add_zero]

/-- For the number `fNum`, `Database::find` gives SQLite the query `text` and no
    other: on the answer to it everything depends, and a row is returned as it is,
    up to its first NUL. -/
def AsksSqlite (fNum text : CString) : Prop :=
  (∀ sqlite sqlite' : CString → Sqlite, sqlite text = sqlite' text →
      Database.find sqlite fNum = Database.find sqlite' fNum) ∧
    ∀ (sqlite : CString → Sqlite) (row : CString), sqlite text = .ROW (some row) →
      Database.find sqlite fNum = .ok (row.takeWhile (· ≠ '\x00'))

theorem find_asksSqlite (fNum : CString) : AsksSqlite fNum (Database.sql fNum) := by
  constructor
  · intro sqlite sqlite' h
    rw [Database.find, Database.find, h]
  · intro sqlite row h
    rw [Database.find, h]

/-- **No number carries anything but digits into the query**, whatever the peer
    sends. -/
theorem query_is_hex {env : Env} {dataTxt : DataTxt} {b : ByteStream} {fNum : CString}
    (h : AsksFor env dataTxt b fNum) :
    fNum ≠ [] ∧ fNum.length ≤ 27 ∧ (∀ c ∈ fNum, c ∈ "0123456789ABCDEF".toList) ∧
      ∃ text, text = "SELECT * FROM NUMS WHERE ORIGNUM = '".toList ++ fNum ++ "';".toList ∧
        AsksSqlite fNum text ∧ text.count '\x27' = 2 ∧ text.count ';' = 1 := by
  obtain ⟨q, hq, rfl⟩ := h
  have hne := hq.called
  obtain ⟨dataTxt', hreq⟩ := hq.decoded
  obtain ⟨-, -, -, -, hinap⟩ := decodeRequest_some hreq
  obtain ⟨arg, o, -, -, h3, h16, hnum⟩ := inap_number hinap hne
  have hhex : ∀ c ∈ q.inapMsg.getCalledPartyNumber, c ∈ "0123456789ABCDEF".toList := by
    intro c hc
    rw [hnum] at hc
    exact addressSignals_hex (List.mem_of_mem_dropLast hc)
  -- a character that is no digit stands in the template only
  have hout : ∀ c : Char, c ∉ "0123456789ABCDEF".toList →
      c ∉ q.inapMsg.getCalledPartyNumber := fun c hc hmem => hc (hhex c hmem)
  refine ⟨hne, ?_, hhex, Database.sql _, sql_eq _, find_asksSqlite _, ?_, ?_⟩
  · rw [hnum, dropLast_addressSignals_length]
    omega
  · rw [sql_eq, count_outside (hout _ (by decide))]
    decide
  · rw [sql_eq, count_outside (hout _ (by decide))]
    decide

theorem query_is_hex_plain :
    "123".toList ≠ [] ∧ "123".toList.length ≤ 27 ∧
      (∀ c ∈ "123".toList, c ∈ "0123456789ABCDEF".toList) ∧
      ∃ text, text = "SELECT * FROM NUMS WHERE ORIGNUM = '".toList ++ "123".toList
          ++ "';".toList ∧
        AsksSqlite "123".toList text ∧ text.count '\x27' = 2 ∧ text.count ';' = 1 :=
  query_is_hex (show AsksFor plainExchange.env none plainExchange.request "123".toList from
    ⟨_, ⟨by decide, ⟨none, rfl⟩, List.cons_ne_nil _ _⟩, rfl⟩)

end ProtoVscp
