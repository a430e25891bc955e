import Ctrlproxy.Base.Line

/-!
# Redirect — which numerics answer which command

The numerics of `libirc/irc.h` that the table `queries` of `libirc/redirect.c` is made of, and the
table.  A row's three vectors end in 0 in C; here they are lists without it.
-/

namespace Ctrlproxy.Redirect

/-! ### Numerics -/

def RPL_YOURHOST : ℤ := 2
def RPL_MYINFO : ℤ := 4
def RPL_TRACELINK : ℤ := 200
def RPL_TRACECONNECTING : ℤ := 201
def RPL_TRACEHANDSHAKE : ℤ := 202
def RPL_TRACEUNKNOWN : ℤ := 203
def RPL_TRACEOPERATOR : ℤ := 204
def RPL_TRACEUSER : ℤ := 205
def RPL_TRACESERVER : ℤ := 206
def RPL_TRACENEWTYPE : ℤ := 208
def RPL_TRACECLASS : ℤ := 209
def RPL_STATSLINKINFO : ℤ := 211
def RPL_STATSCOMMANDS : ℤ := 212
def RPL_STATSCLINE : ℤ := 213
def RPL_STATSNLINE : ℤ := 214
def RPL_STATSILINE : ℤ := 215
def RPL_STATSKLINE : ℤ := 216
def RPL_STATSQLINE : ℤ := 217
def RPL_ENDOFSTATS : ℤ := 219
def RPL_UMODEIS : ℤ := 221
def RPL_SERVLIST : ℤ := 234
def RPL_SERVLISTEND : ℤ := 235
def RPL_STATSLLINE : ℤ := 241
def RPL_STATSUPTIME : ℤ := 242
def RPL_STATSOLINE : ℤ := 243
def RPL_STATSHLINE : ℤ := 244
def RPL_STATSPLINE : ℤ := 249
def RPL_STATSTLINE : ℤ := 250
def RPL_LUSERCLIENT : ℤ := 251
def RPL_LUSEROP : ℤ := 252
def RPL_LUSERUNKNOWN : ℤ := 253
def RPL_LUSERCHANNELS : ℤ := 254
def RPL_LUSERME : ℤ := 255
def RPL_ADMINME : ℤ := 256
def RPL_ADMINLOC1 : ℤ := 257
def RPL_ADMINLOC2 : ℤ := 258
def RPL_ADMINLOC3 : ℤ := 259
def RPL_TRYAGAIN : ℤ := 263
def RPL_WHOISSSL : ℤ := 275
def RPL_CAPAB : ℤ := 290
def RPL_AWAY : ℤ := 301
def RPL_USERHOST : ℤ := 302
def RPL_ISON : ℤ := 303
def RPL_UNAWAY : ℤ := 305
def RPL_NOWAWAY : ℤ := 306
def RPL_WHOISIP : ℤ := 307
def RPL_WHOISSERVEROPERATOR : ℤ := 308
def RPL_WHOISNETWORKSERVICE : ℤ := 309
def RPL_WHOISUSER : ℤ := 311
def RPL_WHOISSERVER : ℤ := 312
def RPL_WHOISOPERATOR : ℤ := 313
def RPL_WHOWASUSER : ℤ := 314
def RPL_ENDOFWHO : ℤ := 315
def RPL_WHOISIDLE : ℤ := 317
def RPL_ENDOFWHOIS : ℤ := 318
def RPL_WHOISCHANNELS : ℤ := 319
def RPL_WHOISIDENTIFIED : ℤ := 320
def RPL_LISTSTART : ℤ := 321
def RPL_LIST : ℤ := 322
def RPL_LISTEND : ℤ := 323
def RPL_CHANNELMODEIS : ℤ := 324
def RPL_UNIQOPIS : ℤ := 325
def RPL_WHOISOPERPRIVS : ℤ := 326
def RPL_WHOISACCOUNT : ℤ := 330
def RPL_WHOWAS_TIME : ℤ := 330
def RPL_NOTOPIC : ℤ := 331
def RPL_TOPIC : ℤ := 332
def RPL_WHOISACTUALLY : ℤ := 338
def RPL_INVITING : ℤ := 341
def RPL_SUMMONING : ℤ := 342
def RPL_INVITELIST : ℤ := 346
def RPL_ENDOFINVITELIST : ℤ := 347
def RPL_EXCEPTLIST : ℤ := 348
def RPL_ENDOFEXCEPTLIST : ℤ := 349
def RPL_VERSION : ℤ := 351
def RPL_WHOREPLY : ℤ := 352
def RPL_NAMREPLY : ℤ := 353
def RPL_WHOSPCRPL : ℤ := 354
def RPL_LINKS : ℤ := 364
def RPL_ENDOFLINKS : ℤ := 365
def RPL_ENDOFNAMES : ℤ := 366
def RPL_BANLIST : ℤ := 367
def RPL_ENDOFBANLIST : ℤ := 368
def RPL_ENDOFWHOWAS : ℤ := 369
def RPL_INFO : ℤ := 371
def RPL_MOTD : ℤ := 372
def RPL_ENDOFINFO : ℤ := 374
def RPL_MOTDSTART : ℤ := 375
def RPL_ENDOFMOTD : ℤ := 376
def RPL_YOUREOPER : ℤ := 381
def RPL_REHASHING : ℤ := 382
def RPL_YOURESERVICE : ℤ := 383
def RPL_TIME : ℤ := 391
def RPL_USERSSTART : ℤ := 392
def RPL_USERS : ℤ := 393
def RPL_ENDOFUSERS : ℤ := 394
def RPL_NOUSERS : ℤ := 395
def ERR_NOSUCHNICK : ℤ := 401
def ERR_NOSUCHSERVER : ℤ := 402
def ERR_NOSUCHCHANNEL : ℤ := 403
def ERR_CANNOTSENDTOCHAN : ℤ := 404
def ERR_TOOMANYCHANNELS : ℤ := 405
def ERR_WASNOSUCHNICK : ℤ := 406
def ERR_TOOMANYTARGETS : ℤ := 407
def ERR_NOORIGIN : ℤ := 409
def ERR_NORECIPIENT : ℤ := 411
def ERR_NOTEXTTOSEND : ℤ := 412
def ERR_NOTOPLEVEL : ℤ := 413
def ERR_WILDTOPLEVEL : ℤ := 414
def ERR_TOOMANYMATCHES : ℤ := 416
def ERR_UNKNOWNCOMMAND : ℤ := 421
def ERR_NOMOTD : ℤ := 422
def ERR_FILEERROR : ℤ := 424
def ERR_NONICKNAMEGIVEN : ℤ := 431
def ERR_ERRONEUSNICKNAME : ℤ := 432
def ERR_NICKNAMEINUSE : ℤ := 433
def ERR_NICKCOLLISION : ℤ := 436
def ERR_UNAVAILRESOURCE : ℤ := 437
def ERR_NICKTOOFAST : ℤ := 438
def ERR_USERNOTINCHANNEL : ℤ := 441
def ERR_NOTONCHANNEL : ℤ := 442
def ERR_USERONCHANNEL : ℤ := 443
def ERR_NOLOGIN : ℤ := 444
def ERR_USERSDISABLED : ℤ := 446
def ERR_NEEDMOREPARAMS : ℤ := 461
def ERR_ALREADYREGISTERED : ℤ := 462
def ERR_PASSWDMISMATCH : ℤ := 464
def ERR_KEYSET : ℤ := 467
def ERR_FORWARDING : ℤ := 470
def ERR_CHANNELISFULL : ℤ := 471
def ERR_UNKNOWNMODE : ℤ := 472
def ERR_INVITEONLYCHAN : ℤ := 473
def ERR_BANNEDFROMCHAN : ℤ := 474
def ERR_BADCHANNELKEY : ℤ := 475
def ERR_BADCHANMASK : ℤ := 476
def ERR_NOCHANMODES : ℤ := 477
def ERR_ILLEGALCHANNELNAME : ℤ := 479
def ERR_NOPRIVILEGES : ℤ := 481
def ERR_CHANOPPRIVSNEEDED : ℤ := 482
def ERR_CANTKILLSERVER : ℤ := 483
def ERR_RESTRICTED : ℤ := 484
def ERR_NOOPERHOST : ℤ := 491
def ERR_UMODEUNKNOWNFLAG : ℤ := 501
def ERR_USERSDONTMATCH : ℤ := 502
def ERR_BLOCKING_NOTID : ℤ := 505
def ERR_BADCOMMAND : ℤ := 900
def ERR_ALREADYAUTHENTICATED : ℤ := 909
def ERR_AUTHENTICATIONFAILED : ℤ := 910
def ERR_AUTHENTICATIONSUSPENDED : ℤ := 911
def ERR_UNKNOWNPACKAGE : ℤ := 912

/-! ### The table -/

/-- How a command is recorded. -/
inductive QueryHandler where
  | handleDefault
  | handleTopic
  deriving DecidableEq, Repr

/-- `struct query`. -/
structure Query where
  name : Option Str
  replies : List ℤ
  endReplies : List ℤ
  errors : List ℤ
  handle : QueryHandler
  deriving DecidableEq

/-- `queries`. -/
def queries : List Query :=
  [ { name := some (str "WHOIS")
      replies := [RPL_WHOISUSER, RPL_WHOISCHANNELS, RPL_AWAY, RPL_WHOISIDLE, RPL_WHOISCHANNELS,
        RPL_WHOISIP, RPL_WHOISSERVER, RPL_WHOISOPERATOR, RPL_WHOISACTUALLY, RPL_WHOISSSL,
        RPL_WHOISACCOUNT, RPL_WHOISIDENTIFIED, RPL_WHOISSERVEROPERATOR, RPL_WHOISNETWORKSERVICE,
        RPL_WHOISOPERPRIVS, ERR_NOSUCHNICK]
      endReplies := [RPL_ENDOFWHOIS, RPL_TRYAGAIN]
      errors := [ERR_NOSUCHSERVER, ERR_NONICKNAMEGIVEN]
      handle := .handleDefault },
    { name := some (str "WHO")
      replies := [RPL_WHOREPLY, RPL_WHOSPCRPL]
      endReplies := [RPL_ENDOFWHO, RPL_TRYAGAIN]
      errors := [ERR_NOSUCHSERVER]
      handle := .handleDefault },
    { name := some (str "NAMES")
      replies := [RPL_NAMREPLY]
      endReplies := [RPL_ENDOFNAMES, RPL_TRYAGAIN]
      errors := [ERR_TOOMANYMATCHES, ERR_NOSUCHSERVER]
      handle := .handleDefault },
    { name := some (str "LIST")
      replies := [RPL_LIST, RPL_LISTSTART]
      endReplies := [RPL_LISTEND, RPL_TRYAGAIN]
      errors := [ERR_TOOMANYMATCHES, ERR_NOSUCHSERVER]
      handle := .handleDefault },
    { name := some (str "TOPIC")
      replies := []
      endReplies := [RPL_NOTOPIC, RPL_TOPIC, RPL_TRYAGAIN]
      errors := [ERR_NOTONCHANNEL, ERR_NEEDMOREPARAMS, ERR_CHANOPPRIVSNEEDED, ERR_NOCHANMODES]
      handle := .handleTopic },
    { name := some (str "WHOWAS")
      replies := [RPL_WHOWASUSER, RPL_WHOISSERVER, RPL_WHOWAS_TIME, ERR_WASNOSUCHNICK]
      endReplies := [RPL_ENDOFWHOWAS, RPL_TRYAGAIN]
      errors := [ERR_NONICKNAMEGIVEN]
      handle := .handleDefault },
    { name := some (str "STATS")
      replies := [RPL_STATSCLINE, RPL_STATSILINE, RPL_STATSQLINE, RPL_STATSPLINE,
        RPL_STATSLINKINFO, RPL_STATSCOMMANDS, RPL_STATSHLINE, RPL_STATSNLINE, RPL_STATSKLINE,
        RPL_STATSLLINE, RPL_STATSUPTIME, RPL_STATSOLINE, RPL_STATSTLINE]
      endReplies := [RPL_TRYAGAIN, RPL_ENDOFSTATS]
      errors := [ERR_NOSUCHSERVER]
      handle := .handleDefault },
    { name := some (str "VERSION")
      replies := []
      endReplies := [RPL_VERSION, RPL_TRYAGAIN]
      errors := [ERR_NOSUCHSERVER]
      handle := .handleDefault },
    { name := some (str "LINKS")
      replies := [RPL_LINKS]
      endReplies := [RPL_ENDOFLINKS, RPL_TRYAGAIN]
      errors := [ERR_NOSUCHSERVER]
      handle := .handleDefault },
    { name := some (str "TIME")
      replies := []
      endReplies := [RPL_TIME, RPL_TRYAGAIN]
      errors := [ERR_NOSUCHSERVER]
      handle := .handleDefault },
    { name := some (str "TRACE")
      replies := [RPL_TRACELINK, RPL_TRACECONNECTING, RPL_TRACEUNKNOWN, RPL_TRACEUSER,
        RPL_TRACECLASS, RPL_TRACEHANDSHAKE, RPL_TRACEOPERATOR, RPL_TRACESERVER, RPL_TRACENEWTYPE]
      endReplies := [RPL_TRYAGAIN]
      errors := [ERR_NOSUCHSERVER]
      handle := .handleDefault },
    { name := some (str "SUMMON")
      replies := []
      endReplies := [RPL_SUMMONING, RPL_TRYAGAIN]
      errors := [ERR_NORECIPIENT, ERR_FILEERROR, ERR_NOLOGIN, ERR_NOSUCHSERVER]
      handle := .handleDefault },
    { name := some (str "USERS")
      replies := [RPL_USERSSTART, RPL_USERS, RPL_NOUSERS]
      endReplies := [RPL_ENDOFUSERS, RPL_TRYAGAIN]
      errors := [ERR_NOSUCHSERVER, ERR_FILEERROR, ERR_USERSDISABLED]
      handle := .handleDefault },
    { name := some (str "USERHOST")
      replies := []
      endReplies := [RPL_USERHOST, RPL_TRYAGAIN]
      errors := [ERR_NEEDMOREPARAMS]
      handle := .handleDefault },
    { name := some (str "ISON")
      replies := []
      endReplies := [RPL_ISON, RPL_TRYAGAIN]
      errors := [ERR_NEEDMOREPARAMS]
      handle := .handleDefault },
    { name := some (str "JOIN")
      replies := []
      endReplies := [RPL_TRYAGAIN]
      errors := [ERR_NEEDMOREPARAMS, ERR_BANNEDFROMCHAN, ERR_INVITEONLYCHAN, ERR_BADCHANNELKEY,
        ERR_CHANNELISFULL, ERR_BADCHANMASK, ERR_FORWARDING, ERR_NOSUCHCHANNEL,
        ERR_ILLEGALCHANNELNAME, ERR_TOOMANYCHANNELS]
      handle := .handleDefault },
    { name := some (str "PART")
      replies := []
      endReplies := [RPL_TRYAGAIN]
      errors := [ERR_NEEDMOREPARAMS, ERR_NOSUCHCHANNEL, ERR_NOTONCHANNEL]
      handle := .handleDefault },
    { name := some (str "NICK")
      replies := []
      endReplies := [RPL_TRYAGAIN]
      errors := [ERR_NONICKNAMEGIVEN, ERR_ERRONEUSNICKNAME, ERR_NICKNAMEINUSE,
        ERR_UNAVAILRESOURCE, ERR_RESTRICTED, ERR_NICKCOLLISION, ERR_NICKTOOFAST]
      handle := .handleDefault },
    { name := some (str "PASS")
      replies := []
      endReplies := []
      errors := [ERR_NEEDMOREPARAMS, ERR_ALREADYREGISTERED]
      handle := .handleDefault },
    { name := some (str "USER")
      replies := []
      endReplies := [RPL_TRYAGAIN]
      errors := [ERR_NEEDMOREPARAMS, ERR_ALREADYREGISTERED]
      handle := .handleDefault },
    { name := some (str "QUIT")
      replies := []
      endReplies := [RPL_TRYAGAIN]
      errors := []
      handle := .handleDefault },
    { name := some (str "OPER")
      replies := []
      endReplies := [RPL_YOUREOPER, RPL_TRYAGAIN]
      errors := [ERR_NEEDMOREPARAMS, ERR_NOOPERHOST, ERR_PASSWDMISMATCH]
      handle := .handleDefault },
    { name := some (str "MODE")
      replies := [RPL_BANLIST, RPL_EXCEPTLIST, RPL_INVITELIST]
      endReplies := [RPL_UMODEIS, RPL_CHANNELMODEIS, RPL_ENDOFBANLIST, RPL_ENDOFEXCEPTLIST,
        RPL_ENDOFINVITELIST, RPL_UNIQOPIS, RPL_TRYAGAIN]
      errors := [ERR_NEEDMOREPARAMS, ERR_UMODEUNKNOWNFLAG, ERR_USERSDONTMATCH,
        ERR_USERNOTINCHANNEL, ERR_KEYSET, ERR_CHANOPPRIVSNEEDED, ERR_UNKNOWNMODE,
        ERR_NOCHANMODES, ERR_NOSUCHCHANNEL, ERR_ILLEGALCHANNELNAME]
      handle := .handleDefault },
    { name := some (str "SERVICE")
      replies := []
      endReplies := [RPL_YOURESERVICE, RPL_YOURHOST, RPL_MYINFO, RPL_TRYAGAIN]
      errors := [ERR_ALREADYREGISTERED, ERR_NEEDMOREPARAMS, ERR_ERRONEUSNICKNAME]
      handle := .handleDefault },
    { name := some (str "SQUIT")
      replies := []
      endReplies := [RPL_TRYAGAIN]
      errors := [ERR_NOPRIVILEGES, ERR_NEEDMOREPARAMS, ERR_NOSUCHSERVER]
      handle := .handleDefault },
    { name := some (str "INVITE")
      replies := []
      endReplies := [RPL_INVITING, RPL_AWAY, RPL_TRYAGAIN]
      errors := [ERR_NEEDMOREPARAMS, ERR_NOTONCHANNEL, ERR_NOSUCHNICK, ERR_CHANOPPRIVSNEEDED,
        ERR_USERONCHANNEL]
      handle := .handleDefault },
    { name := some (str "KICK")
      replies := []
      endReplies := [RPL_TRYAGAIN]
      errors := [ERR_NEEDMOREPARAMS, ERR_BADCHANMASK, ERR_USERNOTINCHANNEL, ERR_NOSUCHCHANNEL,
        ERR_CHANOPPRIVSNEEDED, ERR_NOTONCHANNEL]
      handle := .handleDefault },
    { name := some (str "PRIVMSG")
      replies := []
      endReplies := [RPL_AWAY, RPL_TRYAGAIN]
      errors := [ERR_NORECIPIENT, ERR_NOTEXTTOSEND, ERR_CANNOTSENDTOCHAN, ERR_NOTOPLEVEL,
        ERR_TOOMANYTARGETS, ERR_WILDTOPLEVEL, ERR_NOSUCHNICK, ERR_NOSUCHCHANNEL,
        ERR_BLOCKING_NOTID]
      handle := .handleDefault },
    { name := some (str "NICKSERV")
      replies := []
      endReplies := [RPL_TRYAGAIN]
      errors := [ERR_NOTEXTTOSEND]
      handle := .handleDefault },
    { name := some (str "CHANSERV")
      replies := []
      endReplies := [RPL_TRYAGAIN]
      errors := [ERR_NOTEXTTOSEND]
      handle := .handleDefault },
    { name := some (str "MOTD")
      replies := [RPL_MOTDSTART, RPL_MOTD]
      endReplies := [RPL_ENDOFMOTD, RPL_TRYAGAIN]
      errors := [ERR_NOMOTD]
      handle := .handleDefault },
    { name := some (str "LUSERS")
      replies := [RPL_LUSERCLIENT, RPL_LUSEROP, RPL_LUSERUNKNOWN, RPL_LUSERCHANNELS,
        RPL_LUSERME, RPL_STATSTLINE]
      endReplies := [RPL_TRYAGAIN]
      errors := [ERR_NOSUCHSERVER]
      handle := .handleDefault },
    { name := some (str "CONNECT")
      replies := []
      endReplies := [RPL_TRYAGAIN]
      errors := [ERR_NOSUCHSERVER, ERR_NEEDMOREPARAMS, ERR_NOPRIVILEGES]
      handle := .handleDefault },
    { name := some (str "ADMIN")
      replies := [RPL_ADMINME, RPL_ADMINLOC2, RPL_ADMINLOC1, RPL_ADMINLOC3]
      endReplies := [RPL_TRYAGAIN]
      errors := [ERR_NOSUCHSERVER]
      handle := .handleDefault },
    { name := some (str "INFO")
      replies := [RPL_INFO]
      endReplies := [RPL_TRYAGAIN, RPL_ENDOFINFO]
      errors := [ERR_NOSUCHSERVER]
      handle := .handleDefault },
    { name := some (str "SERVLIST")
      replies := [RPL_SERVLIST]
      endReplies := [RPL_TRYAGAIN, RPL_SERVLISTEND]
      errors := []
      handle := .handleDefault },
    { name := some (str "SQUERY")
      replies := []
      endReplies := [RPL_AWAY, RPL_TRYAGAIN]
      errors := [ERR_NORECIPIENT, ERR_NOTEXTTOSEND, ERR_CANNOTSENDTOCHAN, ERR_NOTOPLEVEL,
        ERR_TOOMANYTARGETS, ERR_WILDTOPLEVEL, ERR_NOSUCHNICK]
      handle := .handleDefault },
    { name := some (str "KILL")
      replies := []
      endReplies := [RPL_TRYAGAIN]
      errors := [ERR_NOPRIVILEGES, ERR_NEEDMOREPARAMS, ERR_NOSUCHNICK, ERR_CANTKILLSERVER]
      handle := .handleDefault },
    { name := some (str "AWAY")
      replies := []
      endReplies := [RPL_UNAWAY, RPL_NOWAWAY, RPL_TRYAGAIN]
      errors := []
      handle := .handleDefault },
    { name := some (str "REHASH")
      replies := []
      endReplies := [RPL_REHASHING, RPL_TRYAGAIN]
      errors := [ERR_NOPRIVILEGES]
      handle := .handleDefault },
    { name := some (str "DIE")
      replies := []
      endReplies := [RPL_TRYAGAIN]
      errors := [ERR_NOPRIVILEGES]
      handle := .handleDefault },
    { name := some (str "RESTART")
      replies := []
      endReplies := [RPL_TRYAGAIN]
      errors := [ERR_NOPRIVILEGES]
      handle := .handleDefault },
    { name := some (str "PING")
      replies := []
      endReplies := [RPL_TRYAGAIN]
      errors := [ERR_NOORIGIN]
      handle := .handleDefault },
    { name := some (str "WALLOPS")
      replies := []
      endReplies := [RPL_TRYAGAIN]
      errors := [ERR_NEEDMOREPARAMS]
      handle := .handleDefault },
    { name := some (str "PONG")
      replies := []
      endReplies := [RPL_TRYAGAIN]
      errors := [ERR_NOORIGIN, ERR_NOSUCHSERVER]
      handle := .handleDefault },
    { name := some (str "NOTICE")
      replies := []
      endReplies := [RPL_TRYAGAIN]
      errors := []
      handle := .handleDefault },
    { name := some (str "AUTH")
      replies := []
      endReplies := [RPL_TRYAGAIN]
      errors := [ERR_NEEDMOREPARAMS, ERR_ALREADYAUTHENTICATED, ERR_ALREADYREGISTERED,
        ERR_AUTHENTICATIONFAILED, ERR_AUTHENTICATIONSUSPENDED, ERR_BADCOMMAND,
        ERR_UNKNOWNPACKAGE]
      handle := .handleDefault },
    { name := some (str "CAPAB")
      replies := []
      endReplies := [RPL_CAPAB]
      errors := [ERR_NEEDMOREPARAMS]
      handle := .handleDefault } ]

/-- `unknown_query`. -/
def unknownQuery : Query where
  name := none
  replies := []
  endReplies := [RPL_TRYAGAIN]
  errors := [ERR_UNKNOWNCOMMAND]
  handle := .handleDefault

end Ctrlproxy.Redirect
