import ProtoVscp.InapMessage

/-! # The called party number through `data.txt`

    What `parseNum` finds in the file is the line of the called party number,
    whatever the other members are, and on it the rest of the function can be
    computed: it returns exactly for 3 to 16 octets, with the Q.763 digits less
    the last one (`numberOf_calledLine`).  The digits are therefore right
    exactly for an odd number of them (`called_number_iff`), and a number of any
    other length stops the server (`initialDP_returns_iff`). -/

namespace ProtoVscp

open CheckedLoops StringOps InapMessage

/-! ## The swap loop -/

/-- A round with an odd index exchanges the first pair only. -/
private theorem swapRound_odd (a b : Char) (l : CString) {i : Nat} (hi : i % 2 = 1) :
    swapRound i (a :: b :: l) = .ok (b :: a :: l) := by
  have hfirst : swapAt Fault.outOfBounds (a :: b :: l) 1 0 = .ok (b :: a :: l) :=
    swapAt_append _ [] l a b
  rw [swapRound, hfirst, ok_bind, if_neg (by omega)]
  rfl

/-- A round with an even index behind the first pair exchanges the pair there
    as well. -/
private theorem swapRound_even (a b x y : Char) (done l : CString)
    (hdone : done.length % 2 = 0) :
    swapRound (done.length + 2) (a :: b :: (done ++ x :: y :: l))
      = .ok (b :: a :: (done ++ y :: x :: l)) := by
  have hfirst : swapAt Fault.outOfBounds (a :: b :: (done ++ x :: y :: l)) 1 0
      = .ok (b :: a :: (done ++ x :: y :: l)) := swapAt_append _ [] _ a b
  have hpair : swapAt Fault.outOfBounds (b :: a :: (done ++ x :: y :: l))
      (done.length + 2 + 1) (done.length + 2) = .ok (b :: a :: (done ++ y :: x :: l)) :=
    swapAt_append _ (b :: a :: done) l x y
  rw [swapRound, hfirst, ok_bind, if_pos (by omega), hpair]

/-- From an even index behind the first pair on, every two rounds leave the
    first pair as it was and exchange the next one. -/
private theorem swapRounds (a b : Char) :
    ∀ (todo done : CString), done.length % 2 = 0 → todo.length % 2 = 0 →
      forN swapRound todo.length (done.length + 2) (a :: b :: (done ++ todo))
        = .ok (a :: b :: (done ++ swapPairs todo))
  | [], done, _, _ => rfl
  | [x], _, _, h => by simp at h
  | x :: y :: l, done, hdone, htodo => by
      have hnext := swapRounds a b l (done ++ [y, x])
        (by simp; omega) (by simp at htodo; omega)
      have hlen : (done ++ [y, x]).length + 2 = done.length + 2 + 1 + 1 := by simp
      simp only [hlen, List.append_assoc, List.cons_append, List.nil_append] at hnext
      rw [List.length_cons, List.length_cons, forN, swapRound_even a b x y done l hdone,
        ok_bind, forN, swapRound_odd b a _ (by omega), ok_bind, hnext]
      rfl

/-- **The swap loop exchanges every pair**, the first one included: it is
    exchanged once for every round and once more in the first. -/
theorem swapLoop_eq (line : CString) (h : line.length % 2 = 0) :
    swapLoop line = .ok (swapPairs line) := by
  match line, h with
  | [], _ => rfl
  | [_], h => simp at h
  | a :: b :: l, h =>
      have hfirst : ∀ x y : Char, swapAt Fault.outOfBounds (x :: y :: l) 1 0
          = .ok (y :: x :: l) := fun x y => swapAt_append _ [] l x y
      have hzero : swapRound 0 (a :: b :: l) = .ok (a :: b :: l) := by
        rw [swapRound, hfirst, ok_bind, if_pos rfl]
        exact hfirst b a
      have hrest := swapRounds b a l [] rfl (by simp at h; omega)
      rw [swapLoop, forRange]
      rw [Nat.sub_zero, List.length_cons, List.length_cons, forN, hzero, ok_bind, forN,
        swapRound_odd a b l rfl, ok_bind]
      exact hrest

/-- **The loop is a pairwise swap** on a string of even length: it returns, so
    every access was to a character of the string, and every character has
    changed places with its partner. -/
theorem swapLoop_swaps_pairs {s : CString} {k : Nat} (h : s.length = 2 * k) :
    ∃ swapped, swapLoop s = .ok swapped ∧ swapped.length = 2 * k ∧
      ∀ j < k, swapped[2 * j]? = s[2 * j + 1]? ∧ swapped[2 * j + 1]? = s[2 * j]? := by
  refine ⟨swapPairs s, swapLoop_eq s (by omega), ?_, fun j hj => ?_⟩
  · rw [swapPairs_length, h]
  · exact swapPairs_pair (by omega)

theorem swapLoop_swaps_pairs_four :
    ∃ swapped, swapLoop ['2', '1', '4', '3'] = .ok swapped ∧ swapped.length = 2 * 2 ∧
      ∀ j < 2, swapped[2 * j]? = ['2', '1', '4', '3'][2 * j + 1]? ∧
        swapped[2 * j + 1]? = ['2', '1', '4', '3'][2 * j]? :=
  swapLoop_swaps_pairs rfl

/-! ## What is printed -/

theorem h2c_mem (n : UInt8) : h2c n ∈ "0123456789ABCDEF".toList := by
  rw [h2c]
  by_cases hn : n.toNat < "0123456789ABCDEF".toList.length
  · rw [List.getD_eq_getElem _ _ hn]
    exact List.getElem_mem hn
  · rw [List.getD_eq_default _ _ (Nat.le_of_not_lt hn)]
    decide

/-- What holds of the hexadecimal digits, the blank and the line end holds of
    every character of a printed octet string. -/
theorem printOctets_chars {P : Char → Prop}
    (hP : ∀ c ∈ "0123456789ABCDEF \n".toList, P c) (ilevel size : Nat) :
    ∀ (st : ByteStream) (i : Nat) (scratch : CString), (∀ c ∈ scratch, P c) →
      ∀ c ∈ printOctets ilevel size i st scratch, P c := by
  have hdigit : ∀ n : UInt8, P (h2c n) := by
    have hsub : "0123456789ABCDEF".toList ⊆ "0123456789ABCDEF \n".toList := by simp
    exact fun n => hP _ (hsub (h2c_mem n))
  have hhex : ∀ b : UInt8, ∀ c ∈ hexOctet b, P c := by
    intro b c hc
    simp only [hexOctet, List.mem_cons, List.not_mem_nil, or_false] at hc
    rcases hc with rfl | rfl | rfl
    · exact hdigit _
    · exact hdigit _
    · exact hP _ (by decide)
  have hindent : ∀ c ∈ i_INDENT ilevel, P c := by
    intro c hc
    rcases List.mem_cons.mp hc with rfl | hspace
    · exact hP _ (by decide)
    · rw [(List.mem_replicate.mp hspace).2]
      exact hP _ (by decide)
  intro st
  induction st with
  | nil =>
      intro i scratch hs c hc
      exact hs c (List.dropLast_subset scratch hc)
  | cons b rest ih =>
      intro i scratch hs c hc
      rw [printOctets] at hc
      by_cases hwrap : i % 16 = 0 ∧ (i ≠ 0 ∨ size > 16)
      · rw [if_pos hwrap, List.mem_append, List.mem_append] at hc
        rcases hc with (hc | hc) | hc
        · exact hs c hc
        · exact hindent c hc
        · exact ih _ _ (hhex b) c hc
      · rw [if_neg hwrap] at hc
        refine ih _ _ (fun c' hc' => ?_) c hc
        rcases List.mem_append.mp hc' with h | h
        · exact hs c' h
        · exact hhex b c' h

/-- Up to sixteen octets are printed in one line. -/
private theorem printOctets_short (ilevel : Nat) {size : Nat} (hsize : size ≤ 16) :
    ∀ (st : ByteStream) (i : Nat) (scratch : CString), i + st.length ≤ size →
      printOctets ilevel size i st scratch = (scratch ++ st.flatMap hexOctet).dropLast := by
  intro st
  induction st with
  | nil => intro i scratch _; simp [printOctets]
  | cons b rest ih =>
      intro i scratch h
      rw [List.length_cons] at h
      rw [printOctets, if_neg (by omega), ih _ _ (by omega), List.flatMap_cons,
        List.append_assoc]

/-- More than sixteen octets begin in a new line. -/
private theorem printOctets_long (ilevel : Nat) {st : ByteStream} (h : 16 < st.length) :
    ∃ more, OCTET_STRING_print ilevel st = i_INDENT ilevel ++ more := by
  cases st with
  | nil => exact absurd h (by decide)
  | cons b rest =>
      refine ⟨printOctets ilevel (b :: rest).length 1 rest (hexOctet b), ?_⟩
      rw [OCTET_STRING_print, printOctets, if_pos ⟨rfl, Or.inr h⟩]
      rfl

private theorem d_not_mem_print (ilevel : Nat) (st : ByteStream) :
    'd' ∉ OCTET_STRING_print ilevel st := by
  intro hd
  exact printOctets_chars (P := (· ≠ 'd')) (by simp) ilevel st.length st 0 []
    (by simp) 'd' hd rfl

/-- The name of the called party number as it is printed. -/
def calledHead : CString := "    calledPartyNumber: ".toList

/-- The line `data.txt` holds for a called party number. -/
def calledLine (o : ByteStream) : CString :=
  calledHead ++ (if o.length ≤ 16 then (o.flatMap hexOctet).dropLast else [])

/-- What is printed behind the called party number: a line end, and no `d`. -/
private theorem printed_behind (calling : Option ByteStream) :
    ∃ after, printOptional 1 "callingPartyNumber".toList calling
        ++ (i_INDENT 0 ++ ("\x7d".toList ++ "\n".toList)) = '\n' :: after ∧ 'd' ∉ after := by
  cases calling with
  | none => exact ⟨"\x7d\n".toList, rfl, by decide⟩
  | some st =>
      refine ⟨List.replicate 4 ' ' ++ ("callingPartyNumber".toList ++ (": ".toList
        ++ (OCTET_STRING_print 2 st ++ "\n\x7d\n".toList))), ?_, ?_⟩
      · simp [printOptional, printMember, i_INDENT]
      · simp only [List.mem_append, not_or]
        exact ⟨by decide, by decide, by decide, d_not_mem_print 2 st, by decide⟩

/-- The printed argument, cut behind the name of the called party number. -/
private theorem asn_fprint_called {arg : InitialDPArg} {o : ByteStream}
    (h : arg.calledPartyNumber = some o) :
    ∃ before after, asn_fprint arg
        = before ++ '\n' :: (calledHead ++ (OCTET_STRING_print 2 o ++ '\n' :: after)) ∧
      'd' ∉ after := by
  obtain ⟨after, hafter, hd⟩ := printed_behind arg.callingPartyNumber
  have hcalled : printOptional 1 "calledPartyNumber".toList (some o)
      = '\n' :: (calledHead ++ OCTET_STRING_print 2 o) := by
    have hhead : calledHead = List.replicate (4 * 1) ' ' ++ ("calledPartyNumber".toList
        ++ ": ".toList) := by decide
    simp only [printOptional, printMember, i_INDENT, hhead, List.append_assoc,
      List.cons_append]
  refine ⟨"InitialDPArg".toList ++ (" ::= \x7b".toList
    ++ printMember 1 "serviceKey".toList (NativeInteger_print arg.serviceKey)), after, ?_, hd⟩
  unfold asn_fprint SEQUENCE_print
  rw [h, hcalled, ← hafter]
  simp only [List.append_assoc, List.cons_append, Nat.sub_self]

/-- The printed argument, cut around the line of the called party number. -/
theorem asn_fprint_split {arg : InitialDPArg} {o : ByteStream}
    (h : arg.calledPartyNumber = some o) :
    ∃ before after, asn_fprint arg = before ++ '\n' :: (calledLine o ++ '\n' :: after) ∧
      'd' ∉ after := by
  obtain ⟨before, behind, hprint, hd⟩ := asn_fprint_called h
  by_cases hshort : o.length ≤ 16
  · refine ⟨before, behind, ?_, hd⟩
    rw [hprint, calledLine, if_pos hshort, OCTET_STRING_print,
      printOctets_short 2 hshort o 0 [] (by omega), List.nil_append, List.append_assoc]
  · obtain ⟨more, hmore⟩ := printOctets_long 2 (Nat.lt_of_not_le hshort)
    refine ⟨before, List.replicate 8 ' ' ++ (more ++ '\n' :: behind), ?_, ?_⟩
    · rw [hprint, calledLine, if_neg hshort, hmore]
      simp only [i_INDENT, List.append_assoc, List.cons_append, List.nil_append]
    · have hno := d_not_mem_print 2 o
      rw [hmore, List.mem_append] at hno
      simp only [List.mem_append, List.mem_cons, not_or]
      exact ⟨by decide, fun hm => hno (Or.inr hm), by decide, hd⟩

/-- Whatever `data.txt` held before, the line found in it is that of the called
    party number just printed. -/
theorem lastLine_asn_fprint {arg : InitialDPArg} {o : ByteStream}
    (h : arg.calledPartyNumber = some o) :
    lastLineWith '\n' "calledPartyNumber:".toList (asn_fprint arg) = calledLine o := by
  obtain ⟨before, after, hprint, hd⟩ := asn_fprint_split h
  have hfind : (find "calledPartyNumber:".toList (calledLine o)).isSome := by
    rw [calledLine, find_append _ (k := 4) (by decide)]
    rfl
  have hnl : '\n' ∉ calledLine o := by
    intro hmem
    have hhex : ∀ b : UInt8, '\n' ∉ hexOctet b := by
      intro b hb
      simp only [hexOctet, List.mem_cons, List.not_mem_nil, or_false] at hb
      have hno : ∀ n : UInt8, '\n' ≠ h2c n := fun n heq =>
        absurd (heq ▸ h2c_mem n) (by decide)
      rcases hb with hb | hb | hb
      · exact hno _ hb
      · exact hno _ hb
      · exact absurd hb (by decide)
    rcases List.mem_append.mp hmem with hm | hm
    · exact absurd hm (by decide)
    · by_cases hshort : o.length ≤ 16
      · rw [if_pos hshort] at hm
        obtain ⟨b, -, hb⟩ := List.mem_flatMap.mp (List.dropLast_subset _ hm)
        exact hhex b hb
      · rw [if_neg hshort] at hm
        exact nomatch hm
  rw [hprint]
  exact lastLineWith_eq hnl hfind (by decide) hd

/-! ## The number in the line -/

/-- The two hexadecimal characters of an octet. -/
private def hexPair (b : UInt8) : CString := [h2c ((b >>> 4) &&& 0x0F), h2c (b &&& 0x0F)]

/-- Without its white space the line is the name and the hexadecimal
    characters. -/
private theorem filter_calledLine {o : ByteStream} (h : o.length ≤ 16) :
    (calledLine o).filter (fun c => !isspace c)
      = "calledPartyNumber:".toList ++ o.flatMap hexPair := by
  have hno : ∀ n : UInt8, isspace (h2c n) = false := by
    have hall : ∀ c ∈ "0123456789ABCDEF".toList, isspace c = false := by
      simp [isspace]
    exact fun n => hall _ (h2c_mem n)
  have hpair : ∀ b : UInt8, (hexOctet b).filter (fun c => !isspace c) = hexPair b := by
    intro b
    simp [hexOctet, hexPair, hno]
    decide
  have hdigits : ∀ l : ByteStream, (l.flatMap hexOctet).filter (fun c => !isspace c)
      = l.flatMap hexPair := by
    intro l
    rw [List.filter_flatMap]
    simp only [hpair]
  -- only the blank behind the last octet is dropped
  have hlast : ((o.flatMap hexOctet).dropLast).filter (fun c => !isspace c)
      = (o.flatMap hexOctet).filter (fun c => !isspace c) := by
    rcases List.eq_nil_or_concat o with rfl | ⟨l, b, rfl⟩
    · rfl
    · have hsplit : (l.concat b).flatMap hexOctet
          = (l.flatMap hexOctet ++ hexPair b) ++ [' '] := by
        simp [hexOctet, hexPair, List.flatMap_append]
      rw [hsplit, List.dropLast_concat, List.filter_append _ [' ']]
      simp [show isspace ' ' = true by decide]
  have hhead : calledHead.filter (fun c => !isspace c) = "calledPartyNumber:".toList := by
    decide
  rw [calledLine, if_pos h, List.filter_append, hlast, hdigits, hhead]

/-- A hexadecimal digit as an upper-case character. -/
def hexChar (n : Nat) : Char := "0123456789ABCDEF".toList.getD n '0'

/-- The address signals of a Q.763 called party number: behind the first two
    octets, the low and then the high nibble of each. -/
def addressSignals (o : ByteStream) : CString :=
  (o.drop 2).flatMap (fun b => [hexChar (b.toNat % 16), hexChar (b.toNat / 16)])

private theorem h2c_low (b : UInt8) : h2c (b &&& 0x0F) = hexChar (b.toNat % 16) := by
  rw [h2c, hexChar]
  rw [UInt8.toNat_and]
  exact congrArg (fun n => "0123456789ABCDEF".toList.getD n '0')
    (Nat.and_two_pow_sub_one_eq_mod b.toNat 4)

private theorem h2c_high (b : UInt8) :
    h2c ((b >>> 4) &&& 0x0F) = hexChar (b.toNat / 16) := by
  have hshift : (b >>> 4).toNat = b.toNat / 16 := by
    rw [UInt8.toNat_shiftRight, show (4 : UInt8).toNat % 8 = 4 from rfl,
      Nat.shiftRight_eq_div_pow]
  have hlt : b.toNat / 16 < 16 := by
    have := UInt8.toNat_lt b
    omega
  rw [h2c_low, hshift, Nat.mod_eq_of_lt hlt]

theorem addressSignals_length (o : ByteStream) :
    (addressSignals o).length = 2 * (o.length - 2) := by
  rw [addressSignals, List.length_flatMap]
  simp
  omega

/-- Every address signal is a hexadecimal digit. -/
theorem addressSignals_hex {o : ByteStream} {c : Char} (h : c ∈ addressSignals o) :
    c ∈ "0123456789ABCDEF".toList := by
  rw [addressSignals] at h
  obtain ⟨b, -, hc⟩ := List.mem_flatMap.mp h
  simp only [List.mem_cons, List.not_mem_nil, or_false] at hc
  rcases hc with rfl | rfl
  · rw [← h2c_low]
    exact h2c_mem _
  · rw [← h2c_high]
    exact h2c_mem _

theorem addressSignals_ne_nil {o : ByteStream} (h : 3 ≤ o.length) :
    addressSignals o ≠ [] := by
  intro hnil
  have := addressSignals_length o
  rw [hnil, List.length_nil] at this
  omega

private theorem hexPairs_length (o : ByteStream) :
    (o.flatMap hexPair).length = 2 * o.length := by
  rw [List.length_flatMap]
  simp [hexPair]
  omega

/-- The character the parity flag is computed from is read inside the line. -/
private theorem charAt_calledLine (o : ByteStream) :
    ∃ c, charAt (calledLine o) 23 = .ok c := by
  have hlen : 23 ≤ (calledLine o).length := by
    rw [calledLine, List.length_append, show calledHead.length = 23 by decide]
    exact Nat.le_add_right 23 _
  rw [charAt]
  by_cases heq : 23 = (calledLine o).length
  · rw [if_pos heq]; exact ⟨_, rfl⟩
  · rw [if_neg heq]
    exact readAt_isOk.mpr (by omega)

/-- The `substr` at 22 leaves out the name, the colon and the four characters
    of the first two octets. -/
private theorem substr_hexPairs (o : ByteStream) :
    substr Fault.outOfRange ("calledPartyNumber:".toList ++ o.flatMap hexPair) 22
      = if 2 ≤ o.length then .ok ((o.drop 2).flatMap hexPair)
        else .error .outOfRange := by
  have hname : "calledPartyNumber:".toList.length = 18 := by decide
  have hlen : ("calledPartyNumber:".toList ++ o.flatMap hexPair).length
      = 18 + 2 * o.length := by
    rw [List.length_append, hname, hexPairs_length]
  rw [substr]
  by_cases htwo : 2 ≤ o.length
  · have hdrop : ("calledPartyNumber:".toList ++ o.flatMap hexPair).drop 22
        = (o.drop 2).flatMap hexPair := by
      rw [List.drop_append, hname, List.drop_eq_nil_of_le (by rw [hname]; decide)]
      cases o with
      | nil => rfl
      | cons a rest =>
          cases rest with
          | nil => rfl
          | cons b rest => rfl
    rw [if_pos (by omega), if_pos htwo, hdrop]
  · rw [if_neg (by omega), if_neg htwo]

/-- Swapping the characters of the remaining octets gives their address
    signals. -/
private theorem swapLoop_hexPairs (o : ByteStream) :
    swapLoop ((o.drop 2).flatMap hexPair) = .ok (addressSignals o) := by
  have heven : ((o.drop 2).flatMap hexPair).length % 2 = 0 := by
    rw [hexPairs_length]
    omega
  have hnibbles : (fun b : UInt8 => [h2c (b &&& 0x0F), h2c ((b >>> 4) &&& 0x0F)])
      = fun b => [hexChar (b.toNat % 16), hexChar (b.toNat / 16)] :=
    funext fun b => by rw [h2c_high, h2c_low]
  rw [swapLoop_eq _ heven, addressSignals, ← hnibbles]
  exact congrArg Except.ok (swapPairs_flatMap _ _ _)

/-- **What `parseNum` makes of the line**: the address signals less the last
    one for 3 to 16 octets, and a `std::out_of_range` otherwise. -/
theorem numberOf_calledLine (o : ByteStream) :
    numberOf (calledLine o)
      = if 3 ≤ o.length ∧ o.length ≤ 16 then .ok (addressSignals o).dropLast
        else .error .outOfRange := by
  have hpos : find ":".toList (calledLine o) = some 21 := by
    rw [calledLine]
    exact find_append _ (by decide)
  obtain ⟨c, hc⟩ := charAt_calledLine o
  rw [numberOf]
  simp only [hpos, hc, ok_bind, Nat.add_one_sub_one]
  by_cases hshort : o.length ≤ 16
  · rw [filter_calledLine hshort, substr_hexPairs]
    by_cases htwo : 2 ≤ o.length
    · rw [if_pos htwo, ok_bind, swapLoop_hexPairs, ok_bind]
      by_cases hthree : 3 ≤ o.length
      · rw [erase_lastPos _ _ (addressSignals_ne_nil hthree), if_pos ⟨hthree, hshort⟩]
      · -- two octets leave an empty line, whose last character is erased
        have hnil : addressSignals o = [] := by
          apply List.eq_nil_of_length_eq_zero
          rw [addressSignals_length]
          omega
        rw [hnil, if_neg (by omega)]
        exact erase_lastPos_nil _ _
    · rw [if_neg htwo, error_bind, if_neg (by omega)]
  · -- the digits stand in the lines behind, and this one ends at the name
    have hfilter : (calledLine o).filter (fun c => !isspace c)
        = "calledPartyNumber:".toList := by
      rw [calledLine, if_neg hshort, List.append_nil]
      decide
    rw [hfilter, if_neg (by omega)]
    rfl

/-! ## InitialDP -/

/-- **The specification of `decodeInitialDP`** on an argument with a called
    party number, whatever `data.txt` held before. -/
theorem decodeInitialDP_eq {asn : Asn1c} {bytes : ByteStream} {arg : InitialDPArg}
    {o : ByteStream} (hdec : asn.decodeInitialDPArg bytes = some arg)
    (hcpn : arg.calledPartyNumber = some o) (files : Files) (m : InapMessage)
    (dataTxt : DataTxt) :
    decodeInitialDP asn files bytes m dataTxt
      = if files.fopen then
          if files.open_ then
            if 3 ≤ o.length ∧ o.length ≤ 16 then
              .ok ({ m with
                    rawNum := calledLine o
                    strCpn := (addressSignals o).dropLast },
                if files.remove then none else some (asn_fprint arg))
            else .error .outOfRange
          else .ok (m, some (asn_fprint arg))
        else .error .nullDeref := by
  have hline : (calledLine o).isEmpty = false := rfl
  rw [decodeInitialDP]
  simp only [hdec, hcpn, Option.isNone_some, Bool.false_eq_true, if_false]
  by_cases hfopen : files.fopen
  · rw [if_pos hfopen, if_pos hfopen]
    rw [parseNum]
    by_cases hopen : files.open_
    · simp only [if_pos hopen, lastLine_asn_fprint hcpn, hline, Bool.false_eq_true,
        if_false, numberOf_calledLine]
      by_cases hlen : 3 ≤ o.length ∧ o.length ≤ 16
      · rw [if_pos hlen, if_pos hlen]
        rfl
      · rw [if_neg hlen, if_neg hlen]
        rfl
    · simp only [if_neg hopen]
  · rw [if_neg hfopen, if_neg hfopen]

/-- **Where a called number comes from**: an InitialDPArg with a called party
    number of 3 to 16 octets. -/
theorem inap_number {asn : Asn1c} {files : Files} {code : Int32} {bytes : ByteStream}
    {dataTxt dataTxt' : DataTxt} {m : InapMessage}
    (h : ofBytes asn files code bytes dataTxt = .ok (m, dataTxt'))
    (hnum : m.getCalledPartyNumber ≠ []) :
    ∃ arg o, asn.decodeInitialDPArg bytes = some arg ∧ arg.calledPartyNumber = some o ∧
      3 ≤ o.length ∧ o.length ≤ 16 ∧
      m.getCalledPartyNumber = (addressSignals o).dropLast := by
  -- an object that is left as it was has no number
  have hempty : ∀ {d : DataTxt}, (Except.ok (InapMessage.empty, d)
      : Outcome (InapMessage × DataTxt)) = .ok (m, dataTxt') → False := by
    intro d h0
    apply hnum
    rw [← (ok_pair_inj h0).1]
    rfl
  rw [ofBytes] at h
  by_cases hcode : code = 0
  · rw [if_pos hcode] at h
    cases hdec : asn.decodeInitialDPArg bytes with
    | none =>
        rw [decodeInitialDP, hdec] at h
        exact (hempty h).elim
    | some arg =>
        cases hcpn : arg.calledPartyNumber with
        | none =>
            rw [decodeInitialDP, hdec] at h
            simp only [hcpn, Option.isNone_none, if_true] at h
            exact (hempty h).elim
        | some o =>
            rw [decodeInitialDP_eq hdec hcpn] at h
            by_cases hfopen : files.fopen
            · by_cases hopen : files.open_
              · by_cases hlen : 3 ≤ o.length ∧ o.length ≤ 16
                · rw [if_pos hfopen, if_pos hopen, if_pos hlen] at h
                  refine ⟨arg, o, rfl, hcpn, hlen.1, hlen.2, ?_⟩
                  rw [← (ok_pair_inj h).1]
                  rfl
                · rw [if_pos hfopen, if_pos hopen, if_neg hlen] at h
                  cases h
              · rw [if_pos hfopen, if_neg hopen] at h
                exact (hempty h).elim
            · rw [if_neg hfopen] at h
              cases h
  · rw [if_neg hcode] at h
    exact (hempty h).elim

/-- The odd/even indicator of a called party number, the most significant bit
    of its first octet, says odd. -/
def oddIndicator (o : ByteStream) : Bool := (o[0]?.getD 0).toNat / 128 == 1

/-- The address digits of Q.763: an odd number of them fills its last octet up
    with a filler. -/
def addressDigits (o : ByteStream) : CString :=
  if oddIndicator o then (addressSignals o).dropLast else addressSignals o

theorem dropLast_addressSignals_length (o : ByteStream) :
    (addressSignals o).dropLast.length = 2 * (o.length - 2) - 1 := by
  rw [List.length_dropLast, addressSignals_length]

private theorem dropLast_addressSignals_ne {o : ByteStream} (h : 3 ≤ o.length) :
    (addressSignals o).dropLast ≠ addressSignals o := by
  intro heq
  have := dropLast_addressSignals_length o
  rw [heq, addressSignals_length] at this
  omega

/-- A number of three octets or more has a digit, also without its filler. -/
private theorem addressDigits_ne_nil {o : ByteStream} (h : 3 ≤ o.length) :
    addressDigits o ≠ [] := by
  rw [addressDigits]
  by_cases hodd : oddIndicator o
  · rw [if_pos hodd]
    intro hnil
    have := dropLast_addressSignals_length o
    rw [hnil, List.length_nil] at this
    omega
  · rw [if_neg hodd]
    exact addressSignals_ne_nil h

/-- **Where the called number is decoded right**: the last nibble is always
    dropped, so exactly when the number of digits is odd (and `data.txt` can be
    written and read back). -/
theorem called_number_iff {asn : Asn1c} {bytes : ByteStream} {arg : InitialDPArg}
    {o : ByteStream} (hdec : asn.decodeInitialDPArg bytes = some arg)
    (hcpn : arg.calledPartyNumber = some o) (h3 : 3 ≤ o.length) (h16 : o.length ≤ 16)
    (files : Files) (dataTxt : DataTxt) :
    (∃ m dataTxt', ofBytes asn files 0 bytes dataTxt = .ok (m, dataTxt') ∧
        m.getCalledPartyNumber = addressDigits o) ↔
      oddIndicator o = true ∧ files.fopen = true ∧ files.open_ = true := by
  have hrun : ofBytes asn files 0 bytes dataTxt
      = decodeInitialDP asn files bytes InapMessage.empty dataTxt := rfl
  rw [hrun, decodeInitialDP_eq hdec hcpn]
  constructor
  · rintro ⟨m, dataTxt', hm, hnum⟩
    by_cases hfopen : files.fopen
    · by_cases hopen : files.open_
      · rw [if_pos hfopen, if_pos hopen, if_pos ⟨h3, h16⟩] at hm
        rw [← (ok_pair_inj hm).1] at hnum
        refine ⟨?_, hfopen, hopen⟩
        -- the last digit is gone, whatever the indicator says
        by_contra hodd
        rw [addressDigits, if_neg hodd] at hnum
        exact dropLast_addressSignals_ne h3 hnum
      · -- the file cannot be read back, and no number is set
        rw [if_pos hfopen, if_neg hopen] at hm
        rw [← (ok_pair_inj hm).1] at hnum
        exact absurd hnum.symm (addressDigits_ne_nil h3)
    · rw [if_neg hfopen] at hm
      exact nomatch hm
  · rintro ⟨hodd, hfopen, hopen⟩
    rw [if_pos hfopen, if_pos hopen, if_pos ⟨h3, h16⟩]
    refine ⟨_, _, rfl, ?_⟩
    rw [addressDigits, if_pos hodd]
    rfl

/-- Every system call on `data.txt` succeeds. -/
def filesOk : Files where
  fopen := true
  open_ := true
  remove := true

/-- An InitialDP with service key 1 and a called party number of few octets. -/
def initialDP (o : ByteStream) : ByteStream :=
  tlv 0x30 (tlv 0x80 [0x01] ++ tlv 0x82 o)

def initialDPArg (o : ByteStream) : InitialDPArg where
  serviceKey := 1
  calledPartyNumber := some o
  callingPartyNumber := none

/-- The codecs at one InitialDP. -/
def initialDPCodec (o : ByteStream) : Asn1c :=
  .ofTable [] [(initialDP o, initialDPArg o)] []

theorem called_number_iff_odd :
    (∃ m dataTxt', ofBytes (initialDPCodec [0x83, 0x10, 0x21, 0x03]) filesOk 0
        (initialDP [0x83, 0x10, 0x21, 0x03]) none = .ok (m, dataTxt') ∧
        m.getCalledPartyNumber = addressDigits [0x83, 0x10, 0x21, 0x03]) ↔
      oddIndicator [0x83, 0x10, 0x21, 0x03] = true ∧ filesOk.fopen = true ∧
        filesOk.open_ = true :=
  called_number_iff
    (show (initialDPCodec _).decodeInitialDPArg (initialDP _) = some (initialDPArg _) from rfl)
    rfl (by decide) (by decide) filesOk none

/-- The number 1234 loses its last digit. -/
theorem even_number_cut :
    (∃ m dataTxt', ofBytes (initialDPCodec [0x03, 0x10, 0x21, 0x43]) filesOk 0
        (initialDP [0x03, 0x10, 0x21, 0x43]) none = .ok (m, dataTxt') ∧
        m.getCalledPartyNumber = "123".toList) ∧
      addressDigits [0x03, 0x10, 0x21, 0x43] = "1234".toList :=
  ⟨⟨_, _, rfl, by decide⟩, by decide⟩

/-- **Which called numbers the server survives**: once `data.txt` is written,
    those it cannot read back and those of 3 to 16 octets. -/
theorem initialDP_returns_iff {asn : Asn1c} {bytes : ByteStream} {arg : InitialDPArg}
    {o : ByteStream} (hdec : asn.decodeInitialDPArg bytes = some arg)
    (hcpn : arg.calledPartyNumber = some o) (files : Files) (dataTxt : DataTxt) :
    (∃ r, ofBytes asn files 0 bytes dataTxt = .ok r) ↔
      files.fopen = true ∧
        (files.open_ = true → 3 ≤ o.length ∧ o.length ≤ 16) := by
  have hrun : ofBytes asn files 0 bytes dataTxt
      = decodeInitialDP asn files bytes InapMessage.empty dataTxt := rfl
  rw [hrun, decodeInitialDP_eq hdec hcpn]
  by_cases hfopen : files.fopen
  · by_cases hopen : files.open_
    · by_cases hlen : 3 ≤ o.length ∧ o.length ≤ 16
      · rw [if_pos hfopen, if_pos hopen, if_pos hlen]
        exact iff_of_true ⟨_, rfl⟩ ⟨hfopen, fun _ => hlen⟩
      · rw [if_pos hfopen, if_pos hopen, if_neg hlen]
        refine iff_of_false ?_ (fun h => hlen (h.2 hopen))
        rintro ⟨r, hr⟩
        exact nomatch hr
    · rw [if_pos hfopen, if_neg hopen]
      exact iff_of_true ⟨_, rfl⟩ ⟨hfopen, fun h => absurd h hopen⟩
  · -- `fclose` on the null pointer
    rw [if_neg hfopen]
    refine iff_of_false ?_ (fun h => hfopen h.1)
    rintro ⟨r, hr⟩
    exact nomatch hr

theorem initialDP_returns_iff_three_octets :
    (∃ r, ofBytes (initialDPCodec [0x83, 0x10, 0x01]) filesOk 0
        (initialDP [0x83, 0x10, 0x01]) none = .ok r) ↔
      filesOk.fopen = true ∧ (filesOk.open_ = true →
        3 ≤ [(0x83 : UInt8), 0x10, 0x01].length ∧ [(0x83 : UInt8), 0x10, 0x01].length ≤ 16) :=
  initialDP_returns_iff
    (show (initialDPCodec _).decodeInitialDPArg (initialDP _) = some (initialDPArg _) from rfl)
    rfl filesOk none

/-- One octet is too short for `substr`. -/
theorem one_octet_throws :
    ofBytes (initialDPCodec [0x83]) filesOk 0 (initialDP [0x83]) none
      = .error .outOfRange := rfl

end ProtoVscp
