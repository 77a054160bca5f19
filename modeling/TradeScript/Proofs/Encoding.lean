import TradeScript.Proofs.Location

/-!
# TradeScript.Proofs.Encoding

The views of a line in bytes. A program that has a line as UTF-8 can compute the views one
byte at a time, without decoding it: it looks for the bytes of the markers, quotes and
backslashes and takes all other bytes as they come (`codeBytes`, `maskBytes`). This is right
because a byte of an ASCII character is no part of another character
(`eq_of_toUInt8_mem_utf8EncodeChar`). What comes out is the encoding of the views of the
characters (`codeBytes_encode`, `maskBytes_encode`), so it can be decoded.
-/

namespace TradeScript

open Text (byteLength byteLength_cons)

/-! ### The bytes of characters -/

/-- The bytes of a text in UTF-8. -/
def encode (cs : List Char) : List UInt8 :=
  cs.flatMap String.utf8EncodeChar

/-- The byte of a space. -/
def spaceByte : UInt8 := ' '.toUInt8

@[simp]
theorem encode_nil : encode [] = [] := rfl

@[simp]
theorem encode_cons (c : Char) (cs : List Char) :
    encode (c :: cs) = String.utf8EncodeChar c ++ encode cs :=
  List.flatMap_cons

@[simp]
theorem encode_append (cs ds : List Char) : encode (cs ++ ds) = encode cs ++ encode ds :=
  List.flatMap_append

theorem length_encode (cs : List Char) : (encode cs).length = byteLength cs := by
  induction cs with
  | nil => rfl
  | cons c cs ih =>
      rw [encode_cons, List.length_append, String.length_utf8EncodeChar, byteLength_cons, ih]

theorem encode_cons_of_utf8Size {a : Char} (ha : a.utf8Size = 1) (cs : List Char) :
    encode (a :: cs) = a.toUInt8 :: encode cs := by
  rw [encode_cons, String.utf8EncodeChar_eq_singleton ha, Char.toUInt8_val, List.singleton_append]

theorem encode_space_cons (cs : List Char) : encode (' ' :: cs) = spaceByte :: encode cs :=
  encode_cons_of_utf8Size rfl cs

theorem encode_blankOut (c : Char) :
    encode (blankOut c) = List.replicate c.utf8Size spaceByte := by
  rw [blankOut, encode, List.flatMap_replicate, String.utf8EncodeChar_eq_singleton rfl]
  exact List.flatten_replicate_singleton

/-- The byte of an ASCII character is part of no other character. -/
theorem eq_of_toUInt8_mem_utf8EncodeChar {a c : Char} (ha : a.utf8Size = 1)
    (h : a.toUInt8 ∈ String.utf8EncodeChar c) : c = a := by
  have hsmall : a.val.toNat ≤ 127 := by
    rw [Char.utf8Size_eq_one_iff, UInt32.le_iff_toNat_le] at ha
    exact ha
  have hbyte : a.toUInt8.toNat = a.val.toNat := by
    rw [Char.toUInt8, UInt32.toNat_toUInt8]
    omega
  refine Char.ext (UInt32.toNat_inj.mp ?_)
  rw [String.utf8EncodeChar] at h
  -- An encoding of one byte has the code point in it. The bytes of all others are too great.
  repeat' split at h
  all_goals
    simp only [List.mem_cons, List.not_mem_nil, or_false, ← UInt8.toNat_inj, hbyte,
      UInt8.toNat_ofNat'] at h
    omega

theorem toUInt8_notMem_utf8EncodeChar {a c : Char} (ha : a.utf8Size = 1) (hne : c ≠ a) :
    a.toUInt8 ∉ String.utf8EncodeChar c :=
  fun h => hne (eq_of_toUInt8_mem_utf8EncodeChar ha h)

/-- Nor does it stand behind the first byte of any character. -/
theorem toUInt8_notMem_tail_utf8EncodeChar {a c : Char} (ha : a.utf8Size = 1) :
    a.toUInt8 ∉ (String.utf8EncodeChar c).tail := by
  intro h
  obtain rfl := eq_of_toUInt8_mem_utf8EncodeChar ha (List.mem_of_mem_tail h)
  rw [String.utf8EncodeChar_eq_singleton ha] at h
  exact absurd h List.not_mem_nil

theorem head?_encode_iff {a : Char} (ha : a.utf8Size = 1) {cs : List Char} :
    (encode cs).head? = some a.toUInt8 ↔ cs.head? = some a := by
  cases cs with
  | nil => simp
  | cons c cs =>
      refine ⟨fun h => ?_, fun h => ?_⟩
      · obtain ⟨b, bs, hc⟩ := List.exists_cons_of_ne_nil (@String.utf8EncodeChar_ne_nil c)
        rw [encode_cons, hc, List.cons_append, List.head?_cons, Option.some.injEq] at h
        have hmem : a.toUInt8 ∈ String.utf8EncodeChar c := by
          rw [hc, h]
          exact List.mem_cons_self
        rw [eq_of_toUInt8_mem_utf8EncodeChar ha hmem, List.head?_cons]
      · obtain rfl := Option.some.inj h
        rw [encode_cons_of_utf8Size ha, List.head?_cons]

/-! ### The code view -/

/-- The code view of a line in bytes, and whether the line ends inside a block comment. -/
def codeBytes : Bool → List UInt8 → List UInt8 × Bool
  | inBlock, [] => ([], inBlock)
  | true, [_] => ([spaceByte], true)
  | true, b :: next :: rest =>
      if b = '*'.toUInt8 ∧ next = '/'.toUInt8 then
        let r := codeBytes false rest
        (spaceByte :: spaceByte :: r.1, r.2)
      else
        let r := codeBytes true (next :: rest)
        (spaceByte :: r.1, r.2)
  | false, [b] => ([b], false)
  | false, b :: next :: rest =>
      if b = '/'.toUInt8 ∧ next = '/'.toUInt8 then
        (spaceByte :: spaceByte :: List.replicate rest.length spaceByte, false)
      else if b = '/'.toUInt8 ∧ next = '*'.toUInt8 then
        let r := codeBytes true rest
        (spaceByte :: spaceByte :: r.1, r.2)
      else
        let r := codeBytes false (next :: rest)
        (b :: r.1, r.2)

theorem codeBytes_true_cons {b : UInt8} {rest : List UInt8}
    (h : ¬ (b = '*'.toUInt8 ∧ rest.head? = some '/'.toUInt8)) :
    codeBytes true (b :: rest) =
      (spaceByte :: (codeBytes true rest).1, (codeBytes true rest).2) := by
  cases rest with
  | nil => rfl
  | cons next rest =>
      rw [List.head?_cons, Option.some.injEq] at h
      rw [codeBytes, if_neg h]

theorem codeBytes_false_cons {b : UInt8} {rest : List UInt8}
    (h : ¬ (b = '/'.toUInt8 ∧
      (rest.head? = some '/'.toUInt8 ∨ rest.head? = some '*'.toUInt8))) :
    codeBytes false (b :: rest) = (b :: (codeBytes false rest).1, (codeBytes false rest).2) := by
  cases rest with
  | nil => rfl
  | cons next rest =>
      simp only [List.head?_cons, Option.some.injEq] at h
      rw [codeBytes, if_neg fun hline => h ⟨hline.1, .inl hline.2⟩,
        if_neg fun hblock => h ⟨hblock.1, .inr hblock.2⟩]

/-- Bytes among which no marker starts are blanked in a block comment. -/
theorem codeBytes_true_append {bs rest : List UInt8} (h : '*'.toUInt8 ∉ bs) :
    codeBytes true (bs ++ rest) =
      (List.replicate bs.length spaceByte ++ (codeBytes true rest).1, (codeBytes true rest).2) := by
  induction bs with
  | nil => rfl
  | cons b bs ih =>
      rw [List.mem_cons, not_or] at h
      rw [List.cons_append, codeBytes_true_cons fun hmarker => h.1 hmarker.1.symm, ih h.2]
      rfl

/-- Bytes among which no marker starts are kept outside of block comments. -/
theorem codeBytes_false_append {bs rest : List UInt8} (h : '/'.toUInt8 ∉ bs) :
    codeBytes false (bs ++ rest) =
      (bs ++ (codeBytes false rest).1, (codeBytes false rest).2) := by
  induction bs with
  | nil => rfl
  | cons b bs ih =>
      rw [List.mem_cons, not_or] at h
      rw [List.cons_append, codeBytes_false_cons fun hmarker => h.1 hmarker.1.symm, ih h.2]
      rfl

theorem encode_blankAll (cs : List Char) :
    encode (blankAll cs) = List.replicate (encode cs).length spaceByte := by
  induction cs with
  | nil => rfl
  | cons c cs ih =>
      have hblank : blankAll (c :: cs) = blankOut c ++ blankAll cs := List.flatMap_cons
      rw [hblank, encode_append, encode_blankOut, ih, encode_cons, List.length_append,
        String.length_utf8EncodeChar, List.replicate_append_replicate]

/-- The pass over the bytes gives the bytes of the code view. -/
theorem codeBytes_encode (inBlock : Bool) (cs : List Char) :
    codeBytes inBlock (encode cs) = (encode (codeView inBlock cs).1, (codeView inBlock cs).2) := by
  have hstar {cs : List Char} : encode ('*' :: cs) = '*'.toUInt8 :: encode cs :=
    encode_cons_of_utf8Size rfl cs
  have hslash {cs : List Char} : encode ('/' :: cs) = '/'.toUInt8 :: encode cs :=
    encode_cons_of_utf8Size rfl cs
  fun_induction codeView inBlock cs with
  | case1 inBlock => simp [codeBytes]
  | case2 rest r ih =>
      rw [hstar, hslash, codeBytes, if_pos ⟨rfl, rfl⟩, ih, encode_space_cons, encode_space_cons]
  | case3 c rest h r ih =>
      by_cases hc : c = '*'
      · subst hc
        have hopen : (encode rest).head? ≠ some '/'.toUInt8 := by
          rw [Ne, head?_encode_iff rfl]
          intro hhead
          obtain ⟨more, rfl⟩ := List.head?_eq_some_iff.mp hhead
          exact h more rfl rfl
        rw [hstar, codeBytes_true_cons fun hmarker => hopen hmarker.2, ih]
        rfl
      · rw [encode_cons, codeBytes_true_append (toUInt8_notMem_utf8EncodeChar rfl hc), ih,
          String.length_utf8EncodeChar, encode_append, encode_blankOut]
  | case4 rest =>
      rw [hslash, hslash, codeBytes, if_pos ⟨rfl, rfl⟩, encode_space_cons, encode_space_cons,
        encode_blankAll]
  | case5 rest r ih =>
      rw [hslash, hstar, codeBytes, if_neg (by decide), if_pos ⟨rfl, rfl⟩, ih,
        encode_space_cons, encode_space_cons]
  | case6 c rest hline hblock r ih =>
      by_cases hc : c = '/'
      · subst hc
        have hopen : ¬ ((encode rest).head? = some '/'.toUInt8 ∨
            (encode rest).head? = some '*'.toUInt8) := by
          rw [head?_encode_iff rfl, head?_encode_iff rfl]
          intro hhead
          rcases hhead with hhead | hhead
          · obtain ⟨more, rfl⟩ := List.head?_eq_some_iff.mp hhead
            exact hline more rfl rfl
          · obtain ⟨more, rfl⟩ := List.head?_eq_some_iff.mp hhead
            exact hblock more rfl rfl
        rw [hslash, codeBytes_false_cons fun hmarker => hopen hmarker.2, ih, hslash]
      · rw [encode_cons, codeBytes_false_append (toUInt8_notMem_utf8EncodeChar rfl hc), ih,
          encode_cons]

/-! ### The bare view -/

/-- The bare view in bytes. `quote` is the byte of the quote that is open. -/
def maskBytes : Option UInt8 → List UInt8 → List UInt8
  | _, [] => []
  | none, b :: rest =>
      b :: maskBytes (if b = '"'.toUInt8 ∨ b = '\''.toUInt8 then some b else none) rest
  | some q, b :: rest =>
      if b = '\\'.toUInt8 then
        spaceByte ::
          match rest with
          | [] => []
          | _ :: rest => spaceByte :: maskBytes (some q) rest
      else if b = q then b :: maskBytes none rest
      else spaceByte :: maskBytes (some q) rest

theorem maskBytes_escape (q next : UInt8) (rest : List UInt8) :
    maskBytes (some q) ('\\'.toUInt8 :: next :: rest) =
      spaceByte :: spaceByte :: maskBytes (some q) rest :=
  rfl

theorem maskBytes_some_cons {q b : UInt8} {rest : List UInt8} (h : b ≠ '\\'.toUInt8) :
    maskBytes (some q) (b :: rest) =
      if b = q then b :: maskBytes none rest else spaceByte :: maskBytes (some q) rest := by
  cases rest with
  | nil => exact if_neg h
  | cons next rest => exact if_neg h

theorem maskBytes_none_append {bs rest : List UInt8} (hdouble : '"'.toUInt8 ∉ bs)
    (hsingle : '\''.toUInt8 ∉ bs) : maskBytes none (bs ++ rest) = bs ++ maskBytes none rest := by
  induction bs with
  | nil => rfl
  | cons b bs ih =>
      rw [List.mem_cons, not_or] at hdouble hsingle
      have hb : ¬ (b = '"'.toUInt8 ∨ b = '\''.toUInt8) :=
        not_or.mpr ⟨Ne.symm hdouble.1, Ne.symm hsingle.1⟩
      rw [List.cons_append, maskBytes, if_neg hb, ih hdouble.2 hsingle.2, List.cons_append]

theorem maskBytes_some_append {q : UInt8} {bs rest : List UInt8} (hescape : '\\'.toUInt8 ∉ bs)
    (hquote : q ∉ bs) :
    maskBytes (some q) (bs ++ rest) =
      List.replicate bs.length spaceByte ++ maskBytes (some q) rest := by
  induction bs with
  | nil => rfl
  | cons b bs ih =>
      rw [List.mem_cons, not_or] at hescape hquote
      rw [List.cons_append, maskBytes_some_cons (Ne.symm hescape.1), if_neg (Ne.symm hquote.1),
        ih hescape.2 hquote.2]
      rfl

/-- The pass over the bytes gives the bytes of the masked text. -/
theorem maskBytes_encode {quote : Option Char} (hquote : ∀ q ∈ quote, q.utf8Size = 1)
    (cs : List Char) :
    maskBytes (quote.map Char.toUInt8) (encode cs) = encode (maskFrom quote cs) := by
  have hescape {cs : List Char} : encode ('\\' :: cs) = '\\'.toUInt8 :: encode cs :=
    encode_cons_of_utf8Size rfl cs
  fun_induction maskFrom quote cs with
  | case1 quote => cases quote <;> rfl
  | case2 c rest ih =>
      by_cases hc : c = '"' ∨ c = '\''
      · have hsize : c.utf8Size = 1 := by rcases hc with rfl | rfl <;> rfl
        have hbyte : c.toUInt8 = '"'.toUInt8 ∨ c.toUInt8 = '\''.toUInt8 :=
          hc.imp (congrArg Char.toUInt8) (congrArg Char.toUInt8)
        rw [if_pos hc] at ih ⊢
        have hrest := ih fun q hq => Option.some.inj hq ▸ hsize
        rw [encode_cons_of_utf8Size hsize, encode_cons_of_utf8Size hsize, Option.map_none,
          maskBytes, if_pos hbyte, ← hrest, Option.map_some]
      · rw [if_neg hc] at ih ⊢
        rw [not_or] at hc
        have hrest := ih fun q hq => absurd hq (Option.not_mem_none q)
        rw [encode_cons, encode_cons, ← hrest, Option.map_none,
          maskBytes_none_append (toUInt8_notMem_utf8EncodeChar rfl hc.1)
            (toUInt8_notMem_utf8EncodeChar rfl hc.2)]
  | case3 q => rfl
  | case4 q e rest ih =>
      -- The escape takes the first byte of the character, and the rest of it is no escape and
      -- no quote.
      obtain ⟨b, bs, he⟩ := List.exists_cons_of_ne_nil (@String.utf8EncodeChar_ne_nil e)
      have htail {a : Char} (ha : a.utf8Size = 1) : a.toUInt8 ∉ bs := by
        have hnot := @toUInt8_notMem_tail_utf8EncodeChar a e ha
        rw [he] at hnot
        exact hnot
      have hsize : e.utf8Size = bs.length + 1 := by
        rw [← String.length_utf8EncodeChar, he, List.length_cons]
      rw [hescape, encode_cons, he, List.cons_append, encode_append, encode_space_cons,
        encode_blankOut, hsize, ← ih hquote, Option.map_some, maskBytes_escape,
        maskBytes_some_append (htail rfl) (htail (hquote q rfl))]
      rfl
  | case5 c rest hlast hnext ih =>
      have hsize := hquote c rfl
      have hbyte := toUInt8_notMem_utf8EncodeChar rfl (ne_escape hlast hnext)
      rw [String.utf8EncodeChar_eq_singleton hsize, Char.toUInt8_val, List.mem_singleton] at hbyte
      have hrest := ih fun q hq => absurd hq (Option.not_mem_none q)
      rw [encode_cons_of_utf8Size hsize, encode_cons_of_utf8Size hsize, Option.map_some,
        maskBytes_some_cons (Ne.symm hbyte), if_pos rfl, ← hrest, Option.map_none]
  | case6 q c rest hlast hnext hc ih =>
      rw [encode_cons, encode_append, encode_blankOut, ← ih hquote, Option.map_some,
        maskBytes_some_append (toUInt8_notMem_utf8EncodeChar rfl (ne_escape hlast hnext))
          (toUInt8_notMem_utf8EncodeChar (hquote q rfl) hc), String.length_utf8EncodeChar]

theorem maskBytes_none_encode (code : List Char) :
    maskBytes none (encode code) = encode (bareView code) :=
  @maskBytes_encode none (fun q hq => absurd hq (Option.not_mem_none q)) code

/-! ### Lines -/

/-- The code and the bare views of consecutive lines in bytes. -/
def viewBytes : Bool → List (List UInt8) → List (List UInt8 × List UInt8)
  | _, [] => []
  | inBlock, line :: rest =>
      let code := codeBytes inBlock line
      (code.1, maskBytes none code.1) :: viewBytes code.2 rest

theorem viewBytes_map_encode (inBlock : Bool) (raws : List (List Char)) :
    let lines := raws.zipWith (fun raw view => Line.ofCode raw view.1) (codeViews inBlock raws)
    viewBytes inBlock (lines.map fun line => encode line.raw) =
      lines.map fun line => (encode line.code, encode line.bare) := by
  induction raws generalizing inBlock with
  | nil => rfl
  | cons raw raws ih =>
      simp only [codeViews, List.zipWith_cons_cons, List.map_cons, viewBytes, Line.ofCode,
        codeBytes_encode, maskBytes_none_encode]
      exact congrArg _ (ih _)

/-! ### Blanking in bytes -/

/-- A view has as many bytes as the line, and each is that of the line or a space. -/
structure BlankedBytes (raw view : List UInt8) : Prop where
  length_eq : view.length = raw.length
  byte {i : Nat} {b : UInt8} : raw[i]? = some b → view[i]? = some b ∨ view[i]? = some spaceByte

/-- In the bytes of a view, a character of the line is there with all of its bytes or with
none. -/
def WholeAt (view : List UInt8) (offset : Nat) (c : Char) : Prop :=
  (view.drop offset).take c.utf8Size = String.utf8EncodeChar c ∨
    (view.drop offset).take c.utf8Size = List.replicate c.utf8Size spaceByte

theorem Blanking.blankedBytes {raw view : List Char} (h : Blanking raw view) :
    BlankedBytes (encode raw) (encode view) where
  length_eq := by rw [length_encode, length_encode, h.byteLength_eq]
  byte {i b} hb := by
    induction h generalizing i with
    | nil => simp at hb
    | keep c _ ih =>
        rw [encode_cons] at hb ⊢
        rcases Nat.lt_or_ge i (String.utf8EncodeChar c).length with hi | hi
        · rw [List.getElem?_append_left hi] at hb ⊢
          exact .inl hb
        · rw [List.getElem?_append_right hi] at hb ⊢
          exact ih hb
    | blank c _ ih =>
        rw [encode_cons, List.getElem?_append, String.length_utf8EncodeChar] at hb
        rw [encode_append, encode_blankOut, List.getElem?_append, List.length_replicate]
        rcases Nat.lt_or_ge i c.utf8Size with hi | hi
        · rw [if_pos hi]
          exact .inr (List.getElem?_replicate_of_lt hi)
        · rw [if_neg (Nat.not_lt.mpr hi)] at hb ⊢
          exact ih hb

theorem Blanking.wholeAt {raw view before after : List Char} {c : Char} (h : Blanking raw view)
    (hraw : raw = before ++ c :: after) : WholeAt (encode view) (byteLength before) c := by
  subst hraw
  induction before generalizing view with
  | nil =>
      cases h with
      | keep _ h =>
          refine .inl ?_
          rw [encode_cons]
          exact List.take_left' (String.length_utf8EncodeChar c)
      | blank _ h =>
          refine .inr ?_
          rw [encode_append, encode_blankOut]
          exact List.take_left' List.length_replicate
  | cons b before ih =>
      cases h with
      | keep _ h =>
          have hlength : b.utf8Size = (String.utf8EncodeChar b).length :=
            (String.length_utf8EncodeChar b).symm
          rw [WholeAt, encode_cons, byteLength_cons, hlength, List.drop_length_add_append]
          exact ih h
      | blank _ h =>
          have hlength : b.utf8Size = (encode (blankOut b)).length := by
            rw [length_encode, byteLength_blankOut]
          rw [WholeAt, encode_append, byteLength_cons, hlength, List.drop_length_add_append]
          exact ih h

theorem fromUTF8?_toUTF8 (text : String) : String.fromUTF8? text.toUTF8 = some text := by
  unfold String.fromUTF8?
  rw [String.toUTF8_eq_toByteArray, dif_pos text.isValidUTF8]
  rfl

theorem fromUTF8?_encode (cs : List Char) :
    String.fromUTF8? (encode cs).toByteArray = some (String.ofList cs) :=
  fromUTF8?_toUTF8 (String.ofList cs)

/-- The views that are computed byte by byte are the encodings of the views of the lines.
They have the length of the line, they differ from it in spaces only, no character of the
line is blanked in part, and decoding them gives the views back. -/
theorem views_bytewise (text : String) :
    let doc := Document.ofText text.toList
    viewBytes false (doc.lines.map fun line => encode line.raw) =
        doc.lines.map (fun line => (encode line.code, encode line.bare)) ∧
      ∀ line ∈ doc.lines,
        BlankedBytes (encode line.raw) (encode line.code) ∧
        BlankedBytes (encode line.code) (encode line.bare) ∧
        (∀ before c after, line.raw = before ++ c :: after →
          WholeAt (encode line.code) (byteLength before) c ∧
          WholeAt (encode line.bare) (byteLength before) c) ∧
        String.fromUTF8? (encode line.code).toByteArray = some (String.ofList line.code) ∧
        String.fromUTF8? (encode line.bare).toByteArray = some (String.ofList line.bare) := by
  intro doc
  refine ⟨viewBytes_map_encode false (rawLines text.toList), fun line hline => ?_⟩
  obtain ⟨raw, -, inBlock, rfl⟩ := Document.exists_codeView_of_mem hline
  have hcode := codeView_blanking inBlock raw
  have hbare := bareView_blanking (codeView inBlock raw).1
  refine ⟨hcode.blankedBytes, hbare.blankedBytes, fun before c after hraw => ?_,
    fromUTF8?_encode _, fromUTF8?_encode _⟩
  exact ⟨hcode.wholeAt hraw, (hcode.trans hbare).wholeAt hraw⟩

/-- An escaped character of two bytes, one in a comment and one in the code. -/
theorem views_bytewise_two_bytes :
    let doc := Document.ofText "'\\é'/*é*/é".toList
    let line : Line := ⟨"'\\é'/*é*/é".toList, "'\\é'      é".toList, "'   '      é".toList⟩
    line ∈ doc.lines ∧ viewBytes false [encode line.raw] = [(encode line.code, encode line.bare)] ∧
      line.raw = "'\\".toList ++ 'é' :: "'/*é*/é".toList ∧
      WholeAt (encode line.code) 2 'é' ∧ WholeAt (encode line.bare) 2 'é' ∧
      String.fromUTF8? (encode line.bare).toByteArray = some (String.ofList line.bare) := by
  intro doc line
  have hlines : doc.lines = [line] := by decide +kernel
  have hline : line ∈ doc.lines := by
    rw [hlines]
    exact List.mem_singleton_self line
  obtain ⟨hviews, hall⟩ := views_bytewise "'\\é'/*é*/é"
  obtain ⟨-, -, hwhole, -, hdecoded⟩ := hall line hline
  have hraw : line.raw = "'\\".toList ++ 'é' :: "'/*é*/é".toList := rfl
  obtain ⟨hcode, hbare⟩ := hwhole _ _ _ hraw
  have hviews : viewBytes false (doc.lines.map fun line => encode line.raw) =
      doc.lines.map fun line => (encode line.code, encode line.bare) := hviews
  rw [hlines] at hviews
  exact ⟨hline, hviews, hraw, hcode, hbare, hdecoded⟩

end TradeScript
