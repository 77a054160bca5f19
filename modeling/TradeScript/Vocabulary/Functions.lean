import TradeScript.Dialect

/-!
# TradeScript.Vocabulary.Functions

The built-in functions: those of both dialects and those of one dialect only.
-/

namespace TradeScript.Vocabulary

/-- Functions of both dialects. -/
def sharedFunctions : List String :=
  ["OrderSend", "OrderSelect", "OrdersTotal", "iMA", "iRSI", "iMACD", "iBands", "iStochastic",
   "iATR", "iAO", "iCCI", "iEnvelopes", "iFractals", "iIchimoku", "iMFI", "iMomentum", "iOBV",
   "iSAR", "iWPR", "iOsMA", "iADX", "iBearsPower", "iBullsPower", "iForce", "iStdDev", "iCustom",
   "iAlligator", "iAC", "iDeMarker", "iVolumes", "iRVI", "iHigh", "iLow", "iOpen", "iClose",
   "iTime", "iBarShift", "iHighest", "iLowest", "iVolume", "iBars", "SetIndexBuffer",
   "IndicatorSetDouble", "IndicatorSetInteger", "IndicatorSetString", "CopyRates", "CopyTime",
   "CopyOpen", "CopyHigh", "CopyLow", "CopyClose", "ArraySetAsSeries", "ArrayIsSeries", "Print",
   "Alert", "Comment", "GetLastError", "SymbolSelect", "SymbolInfoDouble", "SymbolInfoInteger",
   "SymbolInfoString", "SymbolInfoTick", "NormalizeDouble", "TerminalInfoInteger",
   "TerminalInfoDouble", "TerminalInfoString", "MQLInfoInteger", "MQLInfoString", "Sleep",
   "MessageBox", "SendMail", "SendFTP", "SendNotification", "PlaySound", "SymbolsTotal",
   "SymbolName", "ArraySize", "ArrayResize", "ArrayCopy", "ArrayCompare", "ArrayFree",
   "ArrayGetAsSeries", "ArrayInitialize", "ArrayFill", "ArrayRange", "ArrayMinimum",
   "ArrayMaximum", "ArraySort", "ArrayBsearch", "ArrayDimension", "StringLen", "StringSubstr",
   "StringTrimLeft", "StringTrimRight", "StringFind", "StringReplace", "StringFormat",
   "StringSplit", "StringJoin", "StringToLower", "StringToUpper", "StringGetCharacter",
   "StringSetCharacter", "StringTrim", "StringConcatenate", "StringCompare", "DoubleToString",
   "IntegerToString", "TimeToString", "TimeToStruct", "StructToTime", "StringToTime",
   "StringToDouble", "StringToInteger", "ColorToString", "StringToColor", "CharToString",
   "ShortToString", "CharArrayToString", "StringToCharArray", "MathAbs", "MathMax", "MathMin",
   "MathRound", "MathCeil", "MathFloor", "MathSqrt", "MathPow", "MathLog", "MathExp", "MathSin",
   "MathCos", "MathTan", "MathArcsin", "MathArccos", "MathArctan", "MathRand", "MathMod",
   "MathSrand", "MathLog10", "MathIsValidNumber", "MathExpm1", "MathLog1p", "MathArccosh",
   "MathArcsinh", "MathArctanh", "MathCosh", "MathSinh", "MathTanh", "TimeCurrent", "TimeLocal",
   "TimeGMT", "TimeDaylightSavings", "TimeGMTOffset", "FileOpen", "FileClose", "FileWrite",
   "FileRead", "FileReadArray", "FileWriteArray", "FileReadDouble", "FileWriteDouble",
   "FileReadInteger", "FileWriteInteger", "FileReadString", "FileWriteString", "FileSeek",
   "FileTell", "FileSize", "FileIsEnding", "FileIsLineEnding", "FileDelete", "FileMove",
   "FileFlush", "FileCopy", "FileIsExist", "FileReadFloat", "FileWriteFloat", "FileReadLong",
   "FileWriteLong", "FileReadNumber", "FileWriteNumber", "FileFindFirst", "FileFindNext",
   "FileFindClose", "ObjectCreate", "ObjectDelete", "ObjectsDeleteAll", "ObjectFind",
   "ObjectGetDouble", "ObjectGetInteger", "ObjectGetString", "ObjectSetDouble",
   "ObjectSetInteger", "ObjectSetString", "ObjectsTotal", "ObjectName", "ObjectGetTimeByValue",
   "ObjectGetValueByTime", "ObjectMove", "TextSetFont", "TextOut", "TextGetSize", "ChartID",
   "ChartOpen", "ChartClose", "ChartFirst", "ChartNext", "ChartRedraw", "ChartSetDouble",
   "ChartSetInteger", "ChartSetString", "ChartGetDouble", "ChartGetInteger", "ChartGetString",
   "ChartNavigate", "ChartIndicatorDelete", "ChartIndicatorName", "ChartIndicatorsTotal",
   "ChartWindowFind", "ChartWindowOnDropped", "ChartPriceOnDropped", "ChartTimeOnDropped",
   "ChartXOnDropped", "ChartYOnDropped", "ChartSymbol", "ChartPeriod", "ChartApplyTemplate",
   "ChartSaveTemplate", "ChartScreenShot", "ChartTimePriceToXY", "ChartXYToTimePrice",
   "ChartSetSymbolPeriod", "AccountInfoDouble", "AccountInfoInteger", "AccountInfoString",
   "CalculateMA", "CalculateSMA", "CalculateEMA", "CalculateSMMA", "CalculateLWMA", "OnCalculate",
   "OnInit", "OnDeinit", "OnTick", "OnTimer", "OnChartEvent", "OnBookEvent", "OnTrade",
   "OnTradeTransaction", "OnTester", "OnTesterInit", "OnTesterDeinit", "OnTesterPass", "OnStart"]

/-- Functions that only MQL4 has. -/
def mql4Functions : List String :=
  ["OrderClose", "OrderModify", "OrderDelete", "OrderTicket", "OrderType", "OrderLots",
   "OrderOpenPrice", "OrderClosePrice", "OrderStopLoss", "OrderTakeProfit", "OrderSymbol",
   "OrderMagicNumber", "OrderProfit", "OrderSwap", "OrderCommission", "MarketInfo",
   "OrderCloseBy", "SetIndexStyle", "SetIndexLabel", "SetIndexEmptyValue", "SetIndexArrow",
   "SetIndexDrawBegin", "SetIndexShift", "IndicatorShortName", "IndicatorDigits",
   "IndicatorBuffers", "IndicatorCounted", "SetLevelValue", "SetLevelStyle", "SetLevelColor",
   "RefreshRates", "WindowFind", "WindowHandle", "WindowIsVisible", "WindowOnDropped",
   "WindowPriceMax", "WindowPriceMin", "WindowPriceOnDropped", "WindowRedraw", "WindowScreenShot",
   "WindowTimeOnDropped", "WindowXOnDropped", "WindowYOnDropped", "TimeToStr", "Day", "Month",
   "Year", "Hour", "Minute", "Seconds", "DayOfWeek", "DayOfYear", "StringGetChar",
   "StringSetChar", "ObjectType", "ObjectDescription", "ObjectGetFiboDescription",
   "ObjectGetShiftByValue", "ObjectGetValueByShift", "AccountBalance", "AccountCredit",
   "AccountCompany", "AccountCurrency", "AccountEquity", "AccountFreeMargin",
   "AccountFreeMarginCheck", "AccountFreeMarginMode", "AccountLeverage", "AccountMargin",
   "AccountName", "AccountNumber", "AccountProfit", "AccountServer", "AccountStopoutLevel",
   "AccountStopoutMode"]

/-- Functions that only MQL5 has. -/
def mql5Functions : List String :=
  ["OrderSendAsync", "OrderCheck", "OrderCalcMargin", "OrderCalcProfit", "OrderGetDouble",
   "OrderGetInteger", "OrderGetString", "OrderGetTicket", "PositionSelect", "PositionOpen",
   "PositionClose", "PositionModify", "PositionGetDouble", "PositionGetInteger",
   "PositionGetString", "PositionGetSymbol", "PositionGetTicket", "PositionsTotal",
   "HistorySelect", "HistorySelectByPosition", "HistoryOrderSelect", "HistoryOrderGetDouble",
   "HistoryOrderGetInteger", "HistoryOrderGetString", "HistoryOrderGetTicket",
   "HistoryOrdersTotal", "HistoryDealSelect", "HistoryDealGetDouble", "HistoryDealGetInteger",
   "HistoryDealGetString", "HistoryDealGetTicket", "HistoryDealsTotal", "iDEMA", "iFrAMA", "iAMA",
   "iVIDyA", "IndicatorCreate", "IndicatorRelease", "IndicatorParameters", "PlotIndexSetInteger",
   "PlotIndexSetDouble", "PlotIndexSetString", "PlotIndexGetInteger", "PlotIndexGetDouble",
   "PlotIndexGetString", "CopyBuffer", "CopyTickVolume", "CopyRealVolume", "CopySpread",
   "ChartIndicatorAdd", "ChartIndicatorGet", "ArrayInsert", "ArrayRemove", "ArrayReverse",
   "ArrayPrint", "TimeTradeServer"]

/-- The functions that the dialect has and the other has not. -/
def ownFunctions : Dialect → List String
  | .mql4 => mql4Functions
  | .mql5 => mql5Functions

end TradeScript.Vocabulary
