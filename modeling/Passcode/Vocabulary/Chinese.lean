import Passcode.Document.Basic

/-!
# The Chinese bundle

The bundle of the locale "zh", in simplified characters.  It keeps the most common English keywords,
because Chinese senders often mix both scripts.
-/

namespace Passcode

/-- The fields of the Chinese bundle. -/
def chineseBundle : Fields :=
  [("otp_keywords", .list
     [.string "验证码", .string "校验码", .string "确认码", .string "登录码", .string "安全码", .string "动态密码",
      .string "一次性密码", .string "临时密码", .string "otp", .string "verification code", .string "code"]),
   ("safety_keywords", .list
     [.string "请勿分享", .string "不要分享", .string "切勿分享", .string "请勿泄露", .string "请勿转发",
      .string "保密此代码", .string "有效期为", .string "有效期", .string "过期时间", .string "将过期",
      .string "do not share"]),
   ("money_indicators", .list
     [.string "余额", .string "金额", .string "支出", .string "收入", .string "转账", .string "交易",
      .string "订单", .string "支付", .string "充值", .string "提现", .string "消费", .string "汇款",
      .string "交易号", .string "订单号", .string "流水号", .string "账单", .string "¥", .string "￥",
      .string "rmb", .string "cny"]),
   ("parcel_keywords", .list
     [.string "取件码", .string "取货码", .string "提货码", .string "快递", .string "驿站", .string "包裹",
      .string "丰巢", .string "菜鸟"]),
   ("errors", .mapping
     [("empty_message",
        .string "消息为空"),
      ("no_otp_keyword",
        .string "未找到验证码关键词和候选验证码"),
      ("keyword_but_no_code",
        .string "包含验证码关键词，但未找到数字或字母数字候选码"),
      ("parcel_keyword_but_no_code",
        .string "包含取件关键词，但未找到候选取件码")])]

end Passcode
