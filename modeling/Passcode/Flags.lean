import Passcode.Keyword.Occurrence

/-!
# Flags — what the keywords of a message say about it as a whole

Four questions are asked of the lowercase copy of a message (`Flags.of`): whether an OTP keyword, a
safety keyword or a parcel keyword stands in it, and whether one of the Chinese, Japanese or Korean
indicators of one-time codes does, whatever the vocabulary.  Beside the parcel keywords of the
vocabulary there are fixed parcel markers.
-/

namespace Passcode

/-- Indicators of one-time codes in Chinese, Japanese and Korean. -/
def cjkIndicators : List Text :=
  ["验证码".toList, "驗證碼".toList, "校验码".toList, "校驗碼".toList, "确认码".toList, "確認碼".toList,
   "动态码".toList, "動態碼".toList, "动态密码".toList, "動態密碼".toList, "认证码".toList, "認證碼".toList,
   "認証コード".toList, "確認コード".toList, "ワンタイムパスワード".toList, "인증번호".toList,
   "인증 번호".toList, "인증코드".toList, "인증 코드".toList]

/-- Markers of parcel notices in Chinese, Japanese and Korean. -/
def parcelMarkers : List Text :=
  ["取件码".toList, "取件碼".toList, "取货码".toList, "取貨碼".toList, "提货码".toList, "提貨碼".toList,
   "取件".toList, "快递".toList, "快遞".toList, "驿站".toList, "驛站".toList, "包裹".toList,
   "丰巢".toList, "菜鸟".toList, "柜机".toList, "受取".toList, "택배".toList]

/-- The flags of a message. -/
structure Flags where
  /-- An OTP keyword stands in the message. -/
  otp : Bool
  /-- A safety keyword stands in the message. -/
  safety : Bool
  /-- A fixed indicator of one-time codes stands in the message. -/
  cjk : Bool
  /-- A parcel keyword or a fixed parcel marker stands in the message. -/
  parcel : Bool
deriving DecidableEq, Repr

namespace Flags

/-- The flags of a message by its lowercase copy. -/
def of (lower : Text) (otp safety parcel : List Text) : Flags :=
  { otp := containsAny lower otp
    safety := containsAny lower safety
    cjk := containsAny lower cjkIndicators
    parcel := containsAny lower parcel || containsAny lower parcelMarkers }

/-- The message is a parcel notice, which does not keep it from having a one-time code too. -/
def isParcel (f : Flags) : Bool := f.parcel

/-- The message speaks of one-time codes. -/
def speaksOfCodes (f : Flags) : Bool := f.otp || f.cjk

end Flags

end Passcode
