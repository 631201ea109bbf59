import ProtoVscp.BerTlv

/-! # The BER decoders

    The decoders of `ber_decoder.c`, `asn_codecs_prim.c`, `NativeInteger.c`,
    `INTEGER.c`, `BOOLEAN.c`, `OCTET_STRING.c` and `constr_*.c`, called once on a
    whole buffer.  A decoder gives the value and the octets it has used, or `none`
    where the C function gives `RC_WMORE` or `RC_FAIL`: the program looks for
    `RC_OK` only.  `ptr` and `size` of a C function are one list here, the octets
    from `ptr` on. -/

namespace ProtoVscp

/-- A decoder of one type. -/
abbrev ber_type_decoder_f (α : Type) := ByteStream → Option (α × Nat)

/-! ## `ber_check_tags` -/

/-- What `ber_check_tags` gives back with `RC_OK`. -/
structure CheckedTags where
  consumed : Nat
  last_length : Int
  tlv_form : Bool

/-- The local variables of `ber_check_tags`; `none` is −1. -/
structure CheckTags where
  ptr : ByteStream
  consumed_myself : Nat
  tlv_constr : Bool
  tlv_len : Option Nat
  limit_len : Option Nat
  expect_00_terminators : Nat

/-- The tags the loop compares with, `none` where it does not look. -/
def expectedTags (tags : List ber_tlv_tag_t) (tag_mode : Int) : List (Option ber_tlv_tag_t) :=
  if tag_mode = 1 then none :: tags.map some
  else if tag_mode = -1 then none :: tags.tail.map some
  else tags.map some

/-- The loop of `ber_check_tags`. -/
def checkTagsLoop (last_tag_form : Option Bool) :
    List (Option ber_tlv_tag_t) → CheckTags → Option CheckTags
  | [], s => some s
  | expected :: more, s => do
      let (tlv_tag, tag_len) ← ber_fetch_tag s.ptr
      let tlv_constr := BER_TLV_CONSTRUCTED s.ptr
      if expected ≠ none ∧ expected ≠ some tlv_tag then none
      else if more ≠ [] ∧ tlv_constr = false then none
      else if more = [] ∧ last_tag_form ≠ none ∧ last_tag_form ≠ some tlv_constr then none
      else do
        let (tlv_len, len_len) ← ber_fetch_length tlv_constr (s.ptr.drop tag_len)
        let s := { s with
          ptr := s.ptr.drop (tag_len + len_len)
          consumed_myself := s.consumed_myself + (tag_len + len_len)
          tlv_constr := tlv_constr
          tlv_len := tlv_len }
        match tlv_len with
        | none =>
            let next := { s with expect_00_terminators := s.expect_00_terminators + 1 }
            if s.limit_len ≠ none then none
            else checkTagsLoop last_tag_form more next
        | some len =>
            let next := { s with ptr := s.ptr.take len, limit_len := some len }
            if s.expect_00_terminators ≠ 0 then none
            else if s.limit_len ≠ none ∧ s.limit_len ≠ some (len + (tag_len + len_len)) then none
            else checkTagsLoop last_tag_form more next

/-- `ber_check_tags`, the tags of the descriptor in place of the descriptor; the
    form of the last tag is free when it is `none`. -/
def ber_check_tags (tags : List ber_tlv_tag_t) (tag_mode : Int) (last_tag_form : Option Bool)
    (ptr : ByteStream) : Option CheckedTags :=
  if tag_mode = 0 ∧ tags = [] then do
    -- the untagged ANY type
    let (_, tag_len) ← ber_fetch_tag ptr
    let tlv_constr := BER_TLV_CONSTRUCTED ptr
    let (tlv_len, len_len) ← ber_fetch_length tlv_constr (ptr.drop tag_len)
    some { consumed := tag_len + len_len
           last_length := tlv_len.elim (-1) fun len => len
           tlv_form := tlv_constr }
  else if tag_mode ≠ 1 ∧ tags = [] then none    -- the assertion on tagno fails
  else do
    let s ← checkTagsLoop last_tag_form (expectedTags tags tag_mode)
      { ptr := ptr, consumed_myself := 0, tlv_constr := false, tlv_len := none,
        limit_len := none, expect_00_terminators := 0 }
    some { consumed := s.consumed_myself
           last_length :=
             if s.expect_00_terminators ≠ 0 then -s.expect_00_terminators
             else s.tlv_len.elim (-1) fun len => len
           tlv_form := s.tlv_constr }

/-! ## Primitive types -/

/-- `ber_decode_primitive` -/
def ber_decode_primitive (tags : List ber_tlv_tag_t) (tag_mode : Int) :
    ber_type_decoder_f ByteStream := fun buf_ptr => do
  let rval ← ber_check_tags tags tag_mode (some false) buf_ptr
  let length := rval.last_length
  let rest := buf_ptr.drop rval.consumed
  if length > rest.length then none
  else some (rest.take length.toNat, rval.consumed + length.toNat)

/-- `asn_INTEGER2long`.  The insignificant octets are skipped as in
    `INTEGER_encode_der`, but only when there are more than a `long` has. -/
def asn_INTEGER2long (buf : ByteStream) : Option Int64 :=
  let b := if buf.length > 8 then canonicalize buf else buf
  if b.length > 8 then none
  else
    match b with
    | [] => some 0
    | oct :: _ =>
        let l : Int64 := if oct >>> 7 ≠ 0 then -1 else 0
        some (b.foldl (fun l oct => (l <<< 8) ||| oct.toUInt64.toInt64) l)

/-- `NativeInteger_decode_ber` -/
def NativeInteger_decode_ber (tags : List ber_tlv_tag_t) (tag_mode : Int) :
    ber_type_decoder_f Int64 := fun buf_ptr => do
  let rval ← ber_check_tags tags tag_mode (some false) buf_ptr
  let length := rval.last_length
  let rest := buf_ptr.drop rval.consumed
  if length > rest.length then none
  else do
    let l ← asn_INTEGER2long (rest.take length.toNat)
    some (l, rval.consumed + length.toNat)

/-- `BOOLEAN_decode_ber`: octets are read until one is not zero. -/
def BOOLEAN_decode_ber (tags : List ber_tlv_tag_t) (tag_mode : Int) :
    ber_type_decoder_f UInt8 := fun buf_ptr => do
  let rval ← ber_check_tags tags tag_mode (some false) buf_ptr
  let length := rval.last_length
  let rest := buf_ptr.drop rval.consumed
  if length > rest.length then none
  else some (((rest.take length.toNat).find? (· ≠ 0)).getD 0, rval.consumed + length.toNat)

/-! ## OCTET STRING -/

/-- `enum asn_OS_Subvariant`, the two that the types in use have. -/
inductive asn_OS_Subvariant where
  | ASN_OSUBV_ANY
  | ASN_OSUBV_STR
  deriving DecidableEq

/-- What `OCTET_STRING_decode_ber` reads of a descriptor. -/
structure asn_OCTET_STRING where
  tags : List ber_tlv_tag_t
  all_tags : List ber_tlv_tag_t
  subvariant : asn_OS_Subvariant

/-- The descriptor of ANY. -/
def asn_DEF_ANY : asn_OCTET_STRING where
  tags := []
  all_tags := []
  subvariant := .ASN_OSUBV_ANY

/-- `struct _stack_el`; `cont_level` is the number of elements below it. -/
structure stack_el where
  left : Int
  got : Int
  want_nulls : Bool

/-- The state of `OCTET_STRING_decode_ber`: the stack from `cur_ptr` down, and
    `st->buf`, `none` as long as it is null. -/
structure OctetStringState where
  stck : List stack_el
  buf_ptr : ByteStream
  consumed_myself : Nat
  st : Option ByteStream

/-- `APPEND`, when there is memory for it. -/
def APPEND (st : Option ByteStream) (buf : ByteStream) : Option ByteStream :=
  some (st.getD [] ++ buf)

/-- The tag an element at `level` is to have: any directly under `st` and in an
    ANY, otherwise one of `all_tags`. -/
def expectedTag (td : asn_OCTET_STRING) (level : Option Nat) (tlv_tag : ber_tlv_tag_t) :
    ber_tlv_tag_t :=
  match td.subvariant, level with
  | .ASN_OSUBV_STR, some level =>
      match td.all_tags[level]? with
      | some tag => tag
      | none => td.all_tags.getLast?.getD tlv_tag
  | _, _ => tlv_tag

/-- The part of an ANY that is not contents is kept, but not an explicit tag. -/
def keepTL (td : asn_OCTET_STRING) (tag_mode : Int) (cont_level : Nat)
    (st : Option ByteStream) (buf : ByteStream) : Option ByteStream :=
  if td.subvariant = .ASN_OSUBV_ANY ∧ (tag_mode ≠ 1 ∨ cont_level ≠ 0) then APPEND st buf else st

/-- The octets that `sel` leaves to read, `Left` of them. -/
def stackLeft (stck : List stack_el) (buf_ptr : ByteStream) : ByteStream :=
  match stck with
  | sel :: _ => if sel.left < 0 then buf_ptr else buf_ptr.take sel.left.toNat
  | [] => buf_ptr

/-- `OS__add_stack_el` and the check that the parent frame is big enough. -/
def addStackEl (stck : List stack_el) (tlvl : Nat) (tlv_len : Option Nat) :
    Option (List stack_el) :=
  let plain : stack_el :=
    { left := tlv_len.elim (-1) fun len => len, got := tlvl, want_nulls := tlv_len.isNone }
  match stck with
  | prev :: _ =>
      if prev.left = -1 then some (plain :: stck)
      else if prev.left < tlvl + tlv_len.getD 0 then none
      else if tlv_len.isNone then some ({ plain with left := prev.left - tlvl } :: stck)
      else some (plain :: stck)
  | [] => some [plain]

/-- An element that is complete is counted in the one around it. -/
def popStackEl (sel prev : stack_el) : Option stack_el :=
  if prev.left ≠ -1 then
    if prev.left < sel.got then none
    else some { prev with left := prev.left - sel.got, got := prev.got + sel.got }
  else some { prev with got := prev.got + sel.got }

/-- Phase 2: the contents of a primitive element. -/
def fillStackEl (s : OctetStringState) : Option OctetStringState :=
  match s.stck with
  | [] => none
  | sel :: below =>
      let buf := s.buf_ptr.take sel.left.toNat
      if buf.length < sel.left.toNat then none
      else some
        { stck := { sel with left := 0, got := sel.got + buf.length } :: below
          buf_ptr := s.buf_ptr.drop buf.length
          consumed_myself := s.consumed_myself + buf.length
          st := if buf.length > 0 then APPEND s.st buf else s.st }

/-- The rest of a round, when `sel` is not complete: the next tag and length. -/
def fetchStackEl (td : asn_OCTET_STRING) (tag_mode : Int) (s : OctetStringState) :
    Option OctetStringState := do
  let Left := stackLeft s.stck s.buf_ptr
  let (tlv_tag, tl) ← ber_fetch_tag Left
  let tlv_constr := BER_TLV_CONSTRUCTED s.buf_ptr
  let (tlv_len, ll) ← ber_fetch_length tlv_constr (Left.drop tl)
  match s.stck with
  | sel :: below =>
      if sel.want_nulls ∧ isEndOfContents s.buf_ptr then
        -- Eat EOC
        some { stck := { left := 0, got := sel.got + 2, want_nulls := false } :: below
               buf_ptr := s.buf_ptr.drop 2
               consumed_myself := s.consumed_myself + 2
               st := keepTL td tag_mode below.length s.st [0, 0] }
      else next s tlv_tag tlv_constr (tl + ll) tlv_len (some below.length)
  | [] => next s tlv_tag tlv_constr (tl + ll) tlv_len none
where
  /-- A new expectation. -/
  next (s : OctetStringState) (tlv_tag : ber_tlv_tag_t) (tlv_constr : Bool) (tlvl : Nat)
      (tlv_len : Option Nat) (level : Option Nat) : Option OctetStringState :=
    if tlv_tag ≠ expectedTag td level tlv_tag then none
    else do
      let stck ← addStackEl s.stck tlvl tlv_len
      let s := { stck := stck
                 buf_ptr := s.buf_ptr.drop tlvl
                 consumed_myself := s.consumed_myself + tlvl
                 st := keepTL td tag_mode s.stck.length s.st (s.buf_ptr.take tlvl) }
      if tlv_constr then some s else fillStackEl s

/-- One round of the loop in phase 1, phase 2 included; the second component
    tells that there is nothing more to wait for. -/
def stackRound (td : asn_OCTET_STRING) (tag_mode : Int) (s : OctetStringState) :
    Option (OctetStringState × Bool) :=
  match s.stck with
  | sel :: below =>
      if sel.left ≤ 0 ∧ sel.want_nulls = false then
        match below with
        | prev :: below => do
            let prev ← popStackEl sel prev
            some ({ s with stck := prev :: below }, false)
        | [] => some ({ s with stck := [] }, true)
      else (fetchStackEl td tag_mode s).map fun s => (s, false)
  | [] => (fetchStackEl td tag_mode s).map fun s => (s, false)

/-- The rounds of phase 1 and 2. -/
def stackRounds (td : asn_OCTET_STRING) (tag_mode : Int) :
    Nat → OctetStringState → Option OctetStringState
  | 0, _ => none
  | fuel + 1, s => do
      let (s, finished) ← stackRound td tag_mode s
      if finished then some s else stackRounds td tag_mode fuel s

/-- `OCTET_STRING_decode_ber`.  A round either uses two octets or more, or takes an
    element off the stack. -/
def OCTET_STRING_decode_ber (td : asn_OCTET_STRING) (tag_mode : Int) :
    ber_type_decoder_f (Option ByteStream) := fun buf_ptr => do
  let rval ← ber_check_tags td.tags tag_mode none buf_ptr
  if rval.tlv_form then do
    let s ← stackRounds td tag_mode (2 * buf_ptr.length + 2)
      { stck := [], buf_ptr := buf_ptr, consumed_myself := 0, st := none }
    some (s.st, s.consumed_myself)
  else
    -- Primitive form, no stack required.
    let st := if td.subvariant = .ASN_OSUBV_ANY ∧ tag_mode ≠ 1
      then APPEND none (buf_ptr.take rval.consumed) else none
    let rest := buf_ptr.drop rval.consumed
    let left := rval.last_length.toNat
    if rest.length < left then none
    else some (APPEND st (rest.take left), rval.consumed + left)

/-! ## SEQUENCE -/

/-- The variables that the macros `LEFT` and `ADVANCE` share. -/
structure asn_struct_ctx where
  ptr : ByteStream
  left : Int
  consumed_myself : Nat

/-- `LEFT`, as the octets themselves. -/
def asn_struct_ctx.LEFT (ctx : asn_struct_ctx) : ByteStream :=
  if ctx.left < 0 then ctx.ptr else ctx.ptr.take ctx.left.toNat

/-- `ADVANCE` -/
def asn_struct_ctx.ADVANCE (ctx : asn_struct_ctx) (num : Nat) : asn_struct_ctx where
  ptr := ctx.ptr.drop num
  left := if ctx.left ≥ 0 then ctx.left - num else ctx.left
  consumed_myself := ctx.consumed_myself + num

/-- `ber_check_tags`, and the octets of a constructed value behind the tag. -/
def phase0 (tags : List ber_tlv_tag_t) (tag_mode : Int) (ptr : ByteStream) :
    Option asn_struct_ctx := do
  let rval ← ber_check_tags tags tag_mode (some true) ptr
  some { ptr := ptr.drop rval.consumed
         left := rval.last_length
         consumed_myself := rval.consumed }

/-- `asn_TYPE_member_t`: the decoder of the type of the member, with the tag mode
    of the member, and what it stores. -/
structure asn_TYPE_member (σ : Type) where
  optional : Nat
  tag : ber_tlv_tag_t
  open_type : Bool                  -- ATF_OPEN_TYPE
  ber_decoder : ber_type_decoder_f (σ → σ)

/-- A decoder whose value is stored in a member. -/
def store {α σ : Type} (d : ber_type_decoder_f α) (set : α → σ → σ) :
    ber_type_decoder_f (σ → σ) :=
  fun ptr => (d ptr).map fun r => (set r.1, r.2)

/-- The tag of a member that has none of its own. -/
abbrev noTag : ber_tlv_tag_t := 2 ^ 32 - 1

/-- The descriptor of a SEQUENCE type. -/
structure asn_SEQUENCE (σ : Type) where
  tags : List ber_tlv_tag_t
  elements : List (asn_TYPE_member σ)
  tag2el : List (ber_tlv_tag_t × Nat)
  ext_after : Int
  ext_before : Int

section Sequence

variable {σ : Type} (td : asn_SEQUENCE σ)

/-- `IN_EXTENSION_GROUP` -/
def asn_SEQUENCE.IN_EXTENSION_GROUP (memb_idx : Nat) : Bool :=
  td.ext_after < memb_idx ∧ memb_idx < td.ext_before

/-- The structure may end in front of member `edx`. -/
def asn_SEQUENCE.mayEnd (edx optional : Nat) : Bool :=
  edx + optional = td.elements.length ∨
    (td.IN_EXTENSION_GROUP edx ∧ td.ext_before > td.elements.length)

/-- The linear search: the member it stops at, or whether it gives up for the
    binary search. -/
def linearSearch (tlv_tag : ber_tlv_tag_t) (use_bsearch : Bool) :
    Nat → List (asn_TYPE_member σ) → Nat ⊕ Bool
  | _, [] => .inr use_bsearch
  | n, elm :: rest =>
      if tlv_tag = elm.tag ∨ elm.open_type then .inl n
      else if elm.tag = noTag then .inr true
      else linearSearch tlv_tag use_bsearch (n + 1) rest

/-- The binary search in `tag2el`, and the best among the members with the tag. -/
def binarySearch (tlv_tag : ber_tlv_tag_t) (edx edx_max : Nat) : Option Nat :=
  ((td.tag2el.filter fun t2m => t2m.1 = tlv_tag ∧ edx ≤ t2m.2 ∧ t2m.2 ≤ edx_max).getLast?).map
    Prod.snd

/-- Find the next available type with this tag. -/
def asn_SEQUENCE.nextMember (edx optional : Nat) (tlv_tag : ber_tlv_tag_t) : Option Nat :=
  let opt_edx_end := edx + optional + 1
  let (opt_edx_end, use_bsearch) :=
    if opt_edx_end > td.elements.length then (td.elements.length, false)
    else if opt_edx_end - edx > 8 then (edx + 8, true)
    else (opt_edx_end, false)
  match linearSearch tlv_tag use_bsearch edx ((td.elements.take opt_edx_end).drop edx) with
  | .inl n => some n
  | .inr true => binarySearch td tlv_tag edx (edx + optional)
  | .inr false => none

/-- Phase 3: skip everything until the end of the SEQUENCE.  `only00` is phase 4. -/
def phase3 : Nat → Bool → asn_struct_ctx → Option asn_struct_ctx
  | 0, _, _ => none
  | fuel + 1, only00, ctx =>
      if ctx.left = 0 then some ctx
      else do
        let (_, tl) ← ber_fetch_tag ctx.LEFT
        if ctx.left < 0 ∧ ctx.ptr.head? = some 0 ∧ ctx.LEFT.length < 2 then none
        else if ctx.left < 0 ∧ isEndOfContents ctx.ptr then
          let ctx := ctx.ADVANCE 2
          phase3 fuel true { ctx with left := ctx.left + 1 }
        else if td.IN_EXTENSION_GROUP td.elements.length = false ∨ only00 then none
        else do
          let ll ← ber_skip_length (BER_TLV_CONSTRUCTED ctx.ptr) (ctx.LEFT.drop tl)
          phase3 fuel only00 (ctx.ADVANCE (tl + ll))

/-- Phase 1 from member `edx` on, and phase 3 behind the last one.  Every round
    leaves a member behind, or skips a value of two octets or more. -/
def phase1 : Nat → Nat → σ → asn_struct_ctx → Option (σ × asn_struct_ctx)
  | 0, _, _, _ => none
  | fuel + 1, edx, st, ctx =>
      let finish := (phase3 td (ctx.ptr.length + 2) false ctx).map fun ctx => (st, ctx)
      match td.elements[edx]? with
      | none => finish
      | some elm =>
          if ctx.left = 0 ∧ td.mayEnd edx elm.optional then some (st, ctx)
          else do
            let (tlv_tag, tag_len) ← ber_fetch_tag ctx.LEFT
            if ctx.left < 0 ∧ ctx.ptr.head? = some 0 ∧ ctx.LEFT.length < 2 then none
            else if ctx.left < 0 ∧ isEndOfContents ctx.ptr ∧ td.mayEnd edx elm.optional then
              finish
            else
              match td.nextMember edx elm.optional tlv_tag with
              | some n => do
                  let member ← td.elements[n]?
                  let (set, consumed) ← member.ber_decoder ctx.LEFT
                  phase1 fuel (n + 1) (set st) (ctx.ADVANCE consumed)
              | none =>
                  if td.IN_EXTENSION_GROUP (edx + elm.optional) = false then none
                  else do
                    -- Skip this tag
                    let skip ← ber_skip_length (BER_TLV_CONSTRUCTED ctx.ptr)
                      (ctx.LEFT.drop tag_len)
                    phase1 fuel (edx + elm.optional) st (ctx.ADVANCE (skip + tag_len))

/-- `SEQUENCE_decode_ber`; `zero` is the structure as `CALLOC` gives it. -/
def SEQUENCE_decode_ber (zero : σ) (tag_mode : Int) : ber_type_decoder_f σ := fun ptr => do
  let ctx ← phase0 td.tags tag_mode ptr
  let (st, ctx) ← phase1 td (td.elements.length + ptr.length + 1) 0 zero ctx
  some (st, ctx.consumed_myself)

end Sequence

/-! ## CHOICE -/

/-- The descriptor of a CHOICE type: the alternatives with their tag modes, and the
    table from tags to alternatives. -/
structure asn_CHOICE (α : Type) where
  elements : List (ber_type_decoder_f α)
  tag2el : List (ber_tlv_tag_t × Nat)

/-- `CHOICE_decode_ber` for a type without a tag, called with tag mode 0, that has
    no extensions. -/
def CHOICE_decode_ber {α : Type} (td : asn_CHOICE α) : ber_type_decoder_f α := fun ptr => do
  let (tlv_tag, _) ← ber_fetch_tag ptr
  let t2m ← td.tag2el.find? fun t2m => t2m.1 = tlv_tag
  let ber_decoder ← td.elements[t2m.2]?
  ber_decoder ptr

/-! ## SEQUENCE OF -/

section SequenceOf

variable {α : Type} (elm_tag : ber_tlv_tag_t) (ber_decoder : ber_type_decoder_f α)

/-- Phase 2 of `SET_OF_decode_ber`: the end-of-contents octets. -/
def phase2Of (ctx : asn_struct_ctx) : Nat → Option asn_struct_ctx
  | 0 => if ctx.left < 0 then none else some ctx
  | fuel + 1 =>
      if ctx.left < 0 then
        if ctx.LEFT.length < 2 then none
        else if isEndOfContents ctx.ptr then
          let next := ctx.ADVANCE 2
          phase2Of { next with left := next.left + 1 } fuel
        else none
      else some ctx

/-- Phase 1 of `SET_OF_decode_ber`, and phase 2 behind it. -/
def phase1Of : Nat → List α → asn_struct_ctx → Option (List α × asn_struct_ctx)
  | 0, _, _ => none
  | fuel + 1, list, ctx =>
      if ctx.left = 0 then some (list, ctx)
      else do
        let (tlv_tag, _) ← ber_fetch_tag ctx.LEFT
        if ctx.left < 0 ∧ ctx.ptr.head? = some 0 ∧ ctx.LEFT.length < 2 then none
        else if ctx.left < 0 ∧ isEndOfContents ctx.ptr then
          (phase2Of ctx ctx.ptr.length).map fun ctx => (list, ctx)
        else if elm_tag ≠ noTag ∧ tlv_tag ≠ elm_tag then none
        else do
          let (elm, consumed) ← ber_decoder ctx.LEFT
          phase1Of fuel (list ++ [elm]) (ctx.ADVANCE consumed)

/-- `SET_OF_decode_ber`, which decodes a SEQUENCE OF too. -/
def SET_OF_decode_ber (tags : List ber_tlv_tag_t) (tag_mode : Int) :
    ber_type_decoder_f (List α) := fun ptr => do
  let ctx ← phase0 tags tag_mode ptr
  let (list, ctx) ← phase1Of elm_tag ber_decoder (ptr.length + 1) [] ctx
  some (list, ctx.consumed_myself)

end SequenceOf

end ProtoVscp
