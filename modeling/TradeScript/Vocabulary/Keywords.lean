/-!
# TradeScript.Vocabulary.Keywords

The words of the language that need no declaration: reserved words, predefined
constants and variables, standard enumerations and classes. Each word stands in
one list.
-/

namespace TradeScript.Vocabulary

/-- Words that may never name a variable, a member, an input or an array. -/
def reservedWords : List String :=
  ["if", "else", "for", "while", "do", "switch", "case", "default", "return", "break", "continue",
   "goto", "class", "struct", "enum", "interface", "union", "typename", "public", "private",
   "protected", "virtual", "static", "const", "volatile", "void", "int", "double", "string",
   "bool", "char", "short", "long", "uchar", "ushort", "uint", "ulong", "float", "color",
   "datetime", "input", "sinput", "extern", "template", "operator", "final", "override",
   "abstract", "new", "delete", "this", "true", "false", "NULL", "nullptr"]

/-- Names of types. -/
def typeWords : List String :=
  ["MqlDateTime", "MqlRates", "MqlTick"]

/-- Results of initialisation and reasons for its undoing. -/
def reasonWords : List String :=
  ["INIT_SUCCEEDED", "INIT_FAILED", "INIT_PARAMETERS_INCORRECT", "REASON_PROGRAM",
   "REASON_REMOVE", "REASON_RECOMPILE", "REASON_CHARTCHANGE", "REASON_CHARTCLOSE",
   "REASON_PARAMETERS", "REASON_ACCOUNT", "REASON_TEMPLATE", "REASON_INITFAILED", "REASON_CLOSE"]

/-- Drawing and line styles. -/
def drawingWords : List String :=
  ["DRAW_LINE", "DRAW_SECTION", "DRAW_HISTOGRAM", "DRAW_ARROW", "DRAW_ZIGZAG", "DRAW_NONE",
   "DRAW_FILLING", "DRAW_BARS", "DRAW_CANDLES", "DRAW_COLOR_LINE", "DRAW_COLOR_SECTION",
   "DRAW_COLOR_HISTOGRAM", "DRAW_COLOR_ARROW", "DRAW_COLOR_ZIGZAG", "DRAW_COLOR_BARS",
   "DRAW_COLOR_CANDLES", "STYLE_SOLID", "STYLE_DASH", "STYLE_DOT", "STYLE_DASHDOT",
   "STYLE_DASHDOTDOT"]

/-- Properties of indicators and plots. -/
def plotWords : List String :=
  ["EMPTY_VALUE", "INDICATOR_DATA", "INDICATOR_COLOR_INDEX", "INDICATOR_CALCULATIONS",
   "INDICATOR_DIGITS", "INDICATOR_HEIGHT", "INDICATOR_LEVELS", "INDICATOR_LEVELCOLOR",
   "INDICATOR_LEVELSTYLE", "INDICATOR_LEVELWIDTH", "INDICATOR_MINIMUM", "INDICATOR_MAXIMUM",
   "INDICATOR_SHORTNAME", "INDICATOR_LEVELTEXT", "INDICATOR_LEVELVALUE", "PLOT_ARROW",
   "PLOT_ARROW_SHIFT", "PLOT_COLOR_INDEXES", "PLOT_DRAW_BEGIN", "PLOT_DRAW_TYPE",
   "PLOT_SHOW_DATA", "PLOT_SHIFT", "PLOT_LINE_COLOR", "PLOT_LINE_STYLE", "PLOT_LINE_WIDTH",
   "PLOT_EMPTY_VALUE"]

/-- Special values and properties of the terminal. -/
def terminalWords : List String :=
  ["EMPTY", "CLR_NONE", "WHOLE_ARRAY", "WRONG_VALUE", "TERMINAL_MAXBARS", "TERMINAL_BUILD",
   "TERMINAL_COMMUNITY_ACCOUNT", "TERMINAL_COMMUNITY_CONNECTION", "TERMINAL_CONNECTED",
   "TERMINAL_DLLS_ALLOWED", "TERMINAL_TRADE_ALLOWED", "TERMINAL_EMAIL_ENABLED",
   "TERMINAL_FTP_ENABLED", "TERMINAL_NOTIFICATIONS_ENABLED", "TERMINAL_SCREEN_DPIW",
   "TERMINAL_SCREEN_DPIH"]

/-- Constants: averaging methods, prices, order kinds and colours. -/
def constantWords : List String :=
  ["MODE_SMA", "MODE_EMA", "MODE_SMMA", "MODE_LWMA", "PRICE_CLOSE", "PRICE_OPEN", "PRICE_HIGH",
   "PRICE_LOW", "PRICE_MEDIAN", "PRICE_TYPICAL", "PRICE_WEIGHTED", "MODE_MAIN", "MODE_SIGNAL",
   "MODE_UPPER", "MODE_LOWER", "MODE_TENKANSEN", "MODE_KIJUNSEN", "MODE_SENKOUSPANA",
   "MODE_SENKOUSPANB", "MODE_CHINKOUSPAN", "MODE_GATORJAW", "MODE_GATORTEETH", "MODE_GATORLIPS",
   "MODE_PLUSDI", "MODE_MINUSDI", "MODE_HISTOGRAM", "OP_BUY", "OP_SELL", "OP_BUYLIMIT",
   "OP_SELLLIMIT", "OP_BUYSTOP", "OP_SELLSTOP", "SELECT_BY_POS", "SELECT_BY_TICKET",
   "MODE_TRADES", "MODE_HISTORY", "clrNONE", "clrBlack", "clrDarkGreen", "clrDarkSlateGray",
   "clrOlive", "clrGreen", "clrTeal", "clrNavy", "clrPurple", "clrMaroon", "clrIndigo",
   "clrMidnightBlue", "clrDarkBlue", "clrDarkOliveGreen", "clrSaddleBrown", "clrForestGreen",
   "clrOliveDrab", "clrSeaGreen", "clrDarkGoldenrod", "clrDarkSlateBlue", "clrSienna",
   "clrMediumBlue", "clrBrown", "clrDarkTurquoise", "clrDimGray", "clrLightSeaGreen",
   "clrDarkViolet", "clrFireBrick", "clrMediumVioletRed", "clrMediumSeaGreen", "clrChocolate",
   "clrCrimson", "clrSteelBlue", "clrGoldenrod", "clrMediumSpringGreen", "clrLawnGreen",
   "clrCadetBlue", "clrDarkOrchid", "clrYellowGreen", "clrLimeGreen", "clrOrangeRed",
   "clrDarkOrange", "clrOrange", "clrGold", "clrYellow", "clrChartreuse", "clrLime",
   "clrSpringGreen", "clrAqua", "clrDeepSkyBlue", "clrBlue", "clrMagenta", "clrRed", "clrGray",
   "clrSlateGray", "clrPeru", "clrBlueViolet", "clrLightSlateGray", "clrDeepPink",
   "clrMediumTurquoise", "clrDodgerBlue", "clrTurquoise", "clrRoyalBlue", "clrSlateBlue",
   "clrDarkKhaki", "clrIndianRed", "clrMediumOrchid", "clrGreenYellow", "clrMediumAquamarine",
   "clrDarkSeaGreen", "clrTomato", "clrRosyBrown", "clrOrchid", "clrMediumPurple",
   "clrPaleVioletRed", "clrCoral", "clrCornflowerBlue", "clrDarkGray", "clrSandyBrown",
   "clrMediumSlateBlue", "clrTan", "clrDarkSalmon", "clrBurlyWood", "clrHotPink", "clrSalmon",
   "clrViolet", "clrLightCoral", "clrSkyBlue", "clrLightSalmon", "clrPlum", "clrKhaki",
   "clrLightGreen", "clrAquamarine", "clrSilver", "clrLightSkyBlue", "clrLightSteelBlue",
   "clrLightBlue", "clrPaleGreen", "clrThistle", "clrPowderBlue", "clrPaleGoldenrod",
   "clrPaleTurquoise", "clrLightGray", "clrWheat", "clrNavajoWhite", "clrMoccasin",
   "clrLightPink", "clrGainsboro", "clrPeachPuff", "clrPink", "clrBisque", "clrLightGoldenrod",
   "clrBlanchedAlmond", "clrLemonChiffon", "clrBeige", "clrAntiqueWhite", "clrPapayaWhip",
   "clrCornsilk", "clrLightYellow", "clrLightCyan", "clrLinen", "clrLavender", "clrMistyRose",
   "clrOldLace", "clrWhiteSmoke", "clrSeashell", "clrIvory", "clrHoneydew", "clrAliceBlue",
   "clrLavenderBlush", "clrMintCream", "clrSnow", "clrWhite"]

/-- Standard enumerations. -/
def enumerationWords : List String :=
  ["ENUM_TIMEFRAMES", "ENUM_MA_METHOD", "ENUM_APPLIED_PRICE", "ENUM_OBJECT",
   "ENUM_OBJECT_PROPERTY_INTEGER", "ENUM_OBJECT_PROPERTY_DOUBLE", "ENUM_OBJECT_PROPERTY_STRING",
   "ENUM_INDICATOR_TYPE", "ENUM_DATATYPE", "ENUM_DRAW_TYPE", "ENUM_LINE_STYLE",
   "ENUM_PLOT_PROPERTY_INTEGER", "ENUM_PLOT_PROPERTY_DOUBLE", "ENUM_PLOT_PROPERTY_STRING",
   "ENUM_INDICATOR_PROPERTY_INTEGER", "ENUM_INDICATOR_PROPERTY_DOUBLE",
   "ENUM_INDICATOR_PROPERTY_STRING", "ENUM_ORDER_TYPE", "ENUM_POSITION_TYPE",
   "ENUM_TRADE_REQUEST_ACTIONS", "ENUM_TRADE_TRANSACTION_TYPE", "ENUM_SYMBOL_INFO_DOUBLE",
   "ENUM_SYMBOL_INFO_INTEGER", "ENUM_SYMBOL_INFO_STRING", "ENUM_TERMINAL_INFO_INTEGER",
   "ENUM_TERMINAL_INFO_DOUBLE", "ENUM_TERMINAL_INFO_STRING", "ENUM_MQL_INFO_INTEGER",
   "ENUM_MQL_INFO_STRING", "ENUM_ACCOUNT_INFO_INTEGER", "ENUM_ACCOUNT_INFO_DOUBLE",
   "ENUM_ACCOUNT_INFO_STRING"]

/-- Predefined variables. -/
def variableWords : List String :=
  ["Ask", "Bid", "Point", "Digits", "Symbol", "Period", "_Symbol", "_Period", "MagicNumber",
   "StopLoss", "TakeProfit", "_Point", "_Digits", "_LastError", "_UninitReason", "_RandomSeed",
   "_StopFlag", "_IsX64", "_IsVisualMode", "AccountBalance", "AccountEquity", "AccountFreeMargin",
   "AccountMargin", "AccountProfit", "AccountCredit", "AccountName", "AccountNumber",
   "AccountLeverage", "AccountCompany", "AccountCurrency", "AccountStopoutMode",
   "AccountStopoutLevel", "_Ask", "_Bid"]

/-- Keys of `#property` lines. -/
def propertyWords : List String :=
  ["copyright", "link", "version", "description", "strict", "indicator_chart_window",
   "indicator_separate_window", "indicator_buffers", "indicator_plots", "indicator_minimum",
   "indicator_maximum", "indicator_labelN", "indicator_colorN", "indicator_styleN",
   "indicator_widthN", "indicator_typeN", "script_show_confirm", "script_show_inputs", "library",
   "indicator_applied_price", "indicator_height", "indicator_level", "indicator_levelcolor",
   "indicator_levelstyle", "indicator_levelwidth", "indicator_leveltext"]

/-- Functions and event handlers that count as keywords. -/
def callWords : List String :=
  ["Alert", "Print", "Comment", "GetLastError", "OrderSend", "OrderClose", "OrderSelect",
   "OrdersTotal", "OrderProfit", "OrderType", "OrderLots", "OrderOpenPrice", "OrderClosePrice",
   "OrderStopLoss", "OrderTakeProfit", "OrderOpenTime", "OrderCloseTime", "OrderCommission",
   "OrderSwap", "OrderSymbol", "OrderMagicNumber", "OrderTicket", "OnInit", "OnDeinit", "OnStart",
   "OnTick", "OnTimer", "OnChartEvent", "OnBookEvent", "OnTradeTransaction", "OnTrade",
   "ArraySetAsSeries"]

/-- Trade classes and constants of the standard library. -/
def tradeWords : List String :=
  ["CTrade", "CPositionInfo", "CSymbolInfo", "CAccountInfo", "POSITION_TYPE_BUY",
   "POSITION_TYPE_SELL", "ORDER_FILLING_FOK", "ORDER_FILLING_IOC", "ORDER_FILLING_RETURN",
   "ENUM_ORDER_FILLING", "INVALID_HANDLE", "trade", "position", "symbolInfo", "accountInfo",
   "ORDER_TYPE_BUY", "ORDER_TYPE_SELL", "ORDER_TYPE_BUY_LIMIT", "ORDER_TYPE_SELL_LIMIT",
   "ORDER_TYPE_BUY_STOP", "ORDER_TYPE_SELL_STOP", "ORDER_TYPE_BUY_STOP_LIMIT",
   "ORDER_TYPE_SELL_STOP_LIMIT", "DEAL_TYPE_BUY", "DEAL_TYPE_SELL", "DEAL_ENTRY_IN",
   "DEAL_ENTRY_OUT", "DEAL_ENTRY_INOUT", "DEAL_ENTRY_OUT_BY", "TRADE_TRANSACTION_ORDER_ADD",
   "TRADE_TRANSACTION_ORDER_UPDATE", "TRADE_TRANSACTION_ORDER_DELETE",
   "TRADE_TRANSACTION_DEAL_ADD", "TRADE_TRANSACTION_DEAL_UPDATE", "TRADE_TRANSACTION_DEAL_DELETE",
   "TRADE_TRANSACTION_HISTORY_ADD", "TRADE_TRANSACTION_HISTORY_UPDATE",
   "TRADE_TRANSACTION_HISTORY_DELETE", "TRADE_TRANSACTION_POSITION", "TRADE_TRANSACTION_REQUEST",
   "MqlTradeTransaction", "MqlTradeRequest", "MqlTradeResult"]

/-- Further classes of the standard library. -/
def classWords : List String :=
  ["COrderInfo", "CHistoryOrderInfo", "CHistoryPositionInfo", "CDealInfo", "CIndicators",
   "CArrayObj", "CObject", "CFile", "CFileBin", "CFileTxt", "CString", "CDateTime", "CChart",
   "CCanvas", "CIndicator", "CiMA", "CiRSI", "CiMACD", "CiBands", "CiStochastic", "CiATR", "CiAO",
   "CiCCI", "CiEnvelopes", "CiFractals", "CiIchimoku", "CiMFI", "CiMomentum", "CiOBV", "CiSAR",
   "CiWPR", "CAnalysisResult"]

/-- Names of the stock moving average indicator. -/
def sampleWords : List String :=
  ["FastMA_Period", "SlowMA_Period", "Signal_Period", "MA_Method", "Applied_Price",
   "FastMA_Buffer", "SlowMA_Buffer", "Signal_Buffer", "IndicatorName", "MinBars",
   "SetIndexBuffer", "SetIndexLabel", "SetIndexStyle", "SetIndexEmptyValue", "IndicatorShortName",
   "OnCalculate", "CalculateMA", "CalculateSMA", "CalculateEMA", "CalculateSMMA", "CalculateLWMA"]

/-- Control flow. -/
def controlWords : List String :=
  ["group", "sizeof"]

/-- Every word that counts as known in both dialects. -/
def keywords : List String :=
  reservedWords ++ typeWords ++ reasonWords ++ drawingWords ++ plotWords ++ terminalWords ++
    constantWords ++ enumerationWords ++ variableWords ++ propertyWords ++ callWords ++
    tradeWords ++ classWords ++ sampleWords ++ controlWords

/-- Words of file headers, banners and links, which are never reported as
undefined. -/
def headerWords : List String :=
  ["copyright", "link", "version", "property", "strict", "include", "import", "define", "ifdef",
   "ifndef", "endif", "else", "elif", "https", "www", "com", "org", "net", "MetaQuotes",
   "Software", "Corp", "mql4", "mql5"]

end TradeScript.Vocabulary
